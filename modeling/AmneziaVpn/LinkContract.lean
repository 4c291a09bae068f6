import AmneziaVpn.ImportController
import AmneziaVpn.LinkServers

/-!
# What share links write and what is handed over

The server that each of the six kinds of links writes, when its reader accepts a link, and the JSON
object that an import hands to the Xray configuration.
-/

namespace AmneziaVpn

open QString Outbounds

variable {qt : QtRuntime} {unsetPort : ℤ} {str : String} {report : LinkReport}

theorem Vless.deserialize_accepted (h : (Vless.deserialize qt str report).2.errMessage = "") :
    (qt.url str).port ≠ -1 ∧
      (Vless.deserialize qt str report).1 = rootWith "inbounds"
        ((Vless.outbound (qt.url str)).insert "streamSettings"
          (.object (streamSettings qt (qt.url str).query))) := by
  unfold Vless.deserialize at h ⊢
  dsimp only at h ⊢
  split_ifs at h ⊢ with hstart hvalid hhost hport huser hfragment
  · simp at h
  · simp at h
  · simp at h
  · simp at h
  · simp at h
  · simp at h
  · exact ⟨hport, rfl⟩
  · exact ⟨hport, rfl⟩

theorem VmessNew.deserialize_accepted {captured : Option QUrlQuery}
    (h : (VmessNew.deserialize qt unsetPort captured str report).2.errMessage = "") :
    ∃ outbound, (VmessNew.deserialize qt unsetPort captured str report).1 =
      rootWith "inbound" outbound := by
  unfold VmessNew.deserialize at h ⊢
  dsimp only at h ⊢
  by_cases hvalid : (!(qt.url str).isValid) = true
  · simp [hvalid] at h
  · rw [if_neg hvalid] at h ⊢
    by_cases hnet : (!NetworkType.contains (protocols (qt.url str).userName).1) = true
    · rw [if_pos hnet] at h
      simp at h
    · rw [if_neg hnet] at h ⊢
      split at h
      · simp at h
      · exact ⟨_, rfl⟩

theorem Trojan.deserialize_accepted (h : (Trojan.deserialize qt str report).2.errMessage = "") :
    (Trojan.deserialize qt str report).1 = rootWith "inbounds"
      ((generateOutboundEntry Outbounds.OUTBOUND_TAG_PROXY "trojan"
        (generateTrojanOUT [Trojan.server qt (qt.url (trimmed str))]) []).insert
          "streamSettings" (.object (streamSettings qt (qt.url (trimmed str)).query))) := by
  unfold Trojan.deserialize at h ⊢
  dsimp only at h ⊢
  split_ifs at h ⊢
  · simp at h
  · rfl

namespace Vmess

variable {conf : QJsonObject} {key : String} {values : List String}

theorem checker_of_candidates (h : values ≠ []) :
    (checker qt conf key values report).2 = report := by
  unfold checker
  dsimp only
  split_ifs
  · rfl
  · cases values with
    | nil => exact absurd rfl h
    | cons => rfl

/-- A key without candidates has to be in the object, with a text that is not blank. -/
theorem checker_accepted (h : (checker qt conf key [] report).2.errMessage = "") :
    report.errMessage = "" ∧ (checker qt conf key [] report).1 = qt.variantText (conf.value key) ∧
      qt.variantText (conf.value key) ≠ "" := by
  unfold checker at h ⊢
  dsimp only at h ⊢
  split_ifs at h ⊢ with hvalue
  · refine ⟨h, rfl, ?_⟩
    intro hempty
    exact hvalue.2.1 (by rw [hempty]; rfl)
  · simp at h

theorem value_upgraded (hpath : key ≠ "path") (hhost : key ≠ "host") :
    (upgraded conf).value key = conf.value key := by
  unfold upgraded
  dsimp only
  split_ifs
  · split
    all_goals rw [QJsonObject.value_insert_of_ne hhost, QJsonObject.value_insert_of_ne hpath]
  · rfl

theorem fromConf_accepted (h : (fromConf qt unsetPort conf report).2.errMessage = "") :
    ∃ user stream, (fromConf qt unsetPort conf report).1 = rootWith "inbounds"
      (vmessOutbound unsetPort
        ⟨qt.variantText (conf.value "add"), (conf.value "port").variantInt, [user]⟩ stream) ∧
      user.id = qt.variantText (conf.value "id") ∧
      qt.variantText (conf.value "add") ≠ "" ∧ qt.variantText (conf.value "id") ≠ "" := by
  unfold fromConf at h ⊢
  dsimp only at h ⊢
  simp only [checker_of_candidates (List.cons_ne_nil _ _)] at h ⊢
  obtain ⟨hadd, hid, hid0⟩ := checker_accepted h
  obtain ⟨-, hadd, hadd0⟩ := checker_accepted hadd
  have hkept : ∀ key ∈ ["add", "id", "port"], (upgraded conf).value key = conf.value key := by
    intro key hkey
    apply value_upgraded
    · rintro rfl
      simp at hkey
    · rintro rfl
      simp at hkey
  rw [hkept "add" (by simp)] at hadd hadd0
  rw [hkept "id" (by simp)] at hid hid0
  rw [hadd, hid, hkept "port" (by simp)]
  exact ⟨_, _, rfl, rfl, hadd0, hid0⟩

theorem deserialize_accepted (h : (deserialize qt unsetPort str report).2.errMessage = "") :
    ∃ conf report', conf = Utils.jsonFromString qt
        (Utils.safeBase64Decode qt (mid (trimmed str) 8)) ∧
      deserialize qt unsetPort str report = fromConf qt unsetPort conf report' := by
  unfold deserialize at h ⊢
  dsimp only at h ⊢
  split_ifs at h ⊢ with hstart hdata hjson hconf
  · simp at h
  · simp at h
  · exact absurd h hjson
  · simp at h
  · exact ⟨_, _, rfl, rfl⟩

end Vmess

theorem Ss.deserialize_accepted (h : (Ss.deserialize qt str report).2.errMessage = "") :
    ∃ server, (Ss.deserialize qt str report).1 = shadowSocksRoot server ∧
      ((withoutName str).1.toList.contains '@' = true ∧
          sip002Scheme qt (withoutName str).1 = some server ∨
        (withoutName str).1.toList.contains '@' = false ∧ ∃ report',
          (oldScheme (qt.text (Utils.fromBase64 (withoutName str).1)) report').1 = server) := by
  unfold Ss.deserialize at h ⊢
  dsimp only at h ⊢
  cases hat : (withoutName str).1.toList.contains '@' with
  | true =>
    simp only [hat, if_true] at h ⊢
    cases hscheme : sip002Scheme qt (withoutName str).1 with
    | none =>
      rw [hscheme] at h
      simp [noColon] at h
    | some server => exact ⟨server, rfl, Or.inl ⟨trivial, rfl⟩⟩
  | false =>
    simp only [Bool.false_eq_true, if_false]
    exact ⟨_, rfl, Or.inr ⟨trivial, _, rfl⟩⟩

namespace Ssd

theorem endsWith_finalName (groupName nodeName : String) (ratio : ℚ) :
    endsWith (finalName qt groupName nodeName ratio) ")" = true := by
  have htext : groupName ++ " - " ++ nodeName ++ " (rate %3)" =
      groupName ++ " - " ++ nodeName ++ " (rate %3" ++ ")" := by
    rw [@String.append_assoc _ " (rate %3" ")"]
    rfl
  rw [finalName, htext]
  exact endsWith_arg _ _

variable {s : Subscription} {node : String × ShadowSocksServerObject} {logList : List String}

theorem readServer_name {server : QJsonValue} (h : readServer qt s server = .ok node) :
    endsWith node.1 ")" = true := by
  unfold readServer at h
  split_ifs at h
  dsimp only at h
  cases haddress : shouldString server.toObject "server" with
  | error message =>
    rw [haddress] at h
    cases h
  | ok address =>
    rw [haddress] at h
    cases h
    exact endsWith_finalName _ _ _

theorem readServers_names {servers : List QJsonValue}
    (h : node ∈ (readServers qt s servers logList).1) : endsWith node.1 ")" = true := by
  induction servers generalizing logList with
  | nil => simp [readServers] at h
  | cons server rest ih =>
    rw [readServers] at h
    cases hread : readServer qt s server with
    | error message =>
      rw [hread] at h
      exact ih h
    | ok first =>
      rw [hread] at h
      rcases List.mem_cons.mp h with rfl | h
      · exact readServer_name hread
      · exact ih h

theorem deserialize_names {server : String × QJsonObject}
    (h : server ∈ (Ssd.deserialize qt str logList).1) :
    endsWith server.1 ")" = true := by
  unfold Ssd.deserialize at h
  split at h
  · simp at h
  · obtain ⟨node, hnode, rfl⟩ := List.mem_map.mp h
    exact readServers_names hnode

end Ssd

open List

def shareKind (link : String) : Option LinkKind :=
  if startsWith link "ss://" then some .ss else linkKind link

/-- The port as a number, if it is written as one in the range of `int`. -/
def numericPort : QJsonValue → Option ℤ
  | .double d => if d.den = 1 ∧ -2 ^ 31 ≤ d.num ∧ d.num < 2 ^ 31 then some d.num else none
  | .string s => toInt? s
  | _ => none

/-- The JSON object of a VMess link in Base64. -/
def vmessConf (qt : QtRuntime) (link : String) : QJsonObject :=
  Utils.jsonFromString qt (Utils.safeBase64Decode qt (mid (trimmed link) 8))

/-- The server of a Shadowsocks link, with the port if it is written. -/
def ssWritten (qt : QtRuntime) (link : String) : Option LinkServer :=
  let uri := (Ss.withoutName link).1
  if uri.toList.contains '@' then
    let x := qt.urlFromUserInput uri
    let userInfo := aroundFirst ':' (Utils.safeBase64Decode qt x.userName)
    x.writtenPort.map fun port => ⟨x.host, port.toNat, .cipher userInfo.1 userInfo.2⟩
  else
    let method := aroundFirst ':' (qt.text (Utils.fromBase64 uri))
    let password := aroundLast '@' method.2
    let address := aroundLast ':' password.2
    (toInt? address.2).map fun port =>
      ⟨address.1, port, .cipher method.1 password.1⟩

/-- The server that a link writes, if it writes a port. Of a subscription it is the first one. -/
def written (qt : QtRuntime) (link : String) : LinkKind → Option LinkServer
  | .vless =>
      let url := qt.url link
      url.writtenPort.map fun port => ⟨Vless.unbracketed url.host, port.toNat, .id url.userInfo⟩
  | .vmessNew =>
      let url := qt.url link
      url.writtenPort.map fun port =>
        ⟨url.host, port.toNat, .id (aroundLast '-' url.password).1⟩
  | .vmess =>
      let conf := vmessConf qt link
      (numericPort (conf.value "port")).map fun port =>
        ⟨qt.variantText (conf.value "add"), port, .id (qt.variantText (conf.value "id"))⟩
  | .trojan =>
      let url := qt.url (trimmed link)
      url.writtenPort.map fun port =>
        ⟨url.host, port.toNat, .password (qt.fromPercentEncoding url.userInfo)⟩
  | .ss => ssWritten qt link
  | .ssd =>
      match Ssd.linkSubscription qt link with
      | .ok s => (Ssd.readServers qt s s.servers []).1.head?.map fun (_, server) =>
          ⟨server.address, server.port, .cipher server.method server.password⟩
      | .error _ => none

variable (context : ImportContext)

def Accepts (link : String) : LinkKind → Prop
  | .ssd => (Ssd.deserialize context.qt link []).1 ≠ []
  | kind => (deserialize context link kind).2.errMessage = ""

def handedJson (link : String) : Option QJsonObject := do
  let kind ← linkKind link
  let (data, _) ← handedOver context link kind
  match context.qt.fromJson (context.qt.toLocal8Bit data) with
  | .ok (.object root) => some root
  | _ => none

structure ReadsJson (root : QJsonObject) : Prop where
  reads_back : context.qt.fromJson (context.qt.toLocal8Bit (Utils.jsonToString context.qt root)) =
    .ok (.object root)
  rejects : ∀ text, endsWith text ")" = true →
    ∃ message, context.qt.fromJson (context.qt.toLocal8Bit text) = .error message

def linkContext (url : QUrl) (document : QJsonObject) : ImportContext where
  qt := .plain url document
  serversCount := 0
  nextAvailableServerName := "Server 1"
  unsetPort := 0
  captured := none

theorem readsJson_linkContext (url : QUrl) (document : QJsonObject) :
    ReadsJson (linkContext url document) document := by
  have hlast : ∀ {text last : String} {byte : UInt8}, endsWith text last = true →
      toUtf8 last = [byte] → (byte == 10) = false →
      ((toUtf8 text).reverse.dropWhile (· == 10)).head? = some byte := by
    intro text last byte htext hbyte hnewline
    obtain ⟨start, hstart⟩ := isSuffixOf_iff_suffix.mp htext
    have heq : text = String.ofList start ++ last := by
      rw [← String.toList_inj, String.toList_append, String.toList_ofList, hstart]
    rw [heq, toUtf8_append, hbyte, reverse_append]
    simp [hnewline]
  constructor
  · apply QtRuntime.fromJson_plain
    refine hlast ?_ (show toUtf8 "\x7d" = [0x7d] from rfl) rfl
    rw [endsWith, isSuffixOf_iff_suffix, Utils.jsonToString, JsonWriter.toJson]
    simp only [String.toList_ofList, JsonWriter.valueToJson, JsonWriter.newline, if_true,
      append_nil]
    exact suffix_append _ _
  · intro text htext
    have hparen := hlast htext (show toUtf8 ")" = [0x29] from rfl) rfl
    refine ⟨_, if_neg ?_⟩
    intro hbrace
    exact absurd (hparen.symm.trans hbrace) (by decide)

section Handed

variable {context} {link : String} {kind : LinkKind}

theorem linkKind_of_shareKind (h : shareKind link = some kind) :
    linkKind link = some kind ∨
      kind = .ss ∧ linkKind link = none ∧ contains link "plugin=" = true := by
  unfold shareKind at h
  split_ifs at h with hss
  · have hother : ∀ start ∈ ["vless://", "vmess://", "trojan://", "ssd://"],
        startsWith link start = false := by
      intro start hstart
      apply startsWith_eq_false hss
      · revert start
        decide
      · revert start
        decide
    have hvless := hother "vless://" (by simp)
    have hvmess := hother "vmess://" (by simp)
    have htrojan := hother "trojan://" (by simp)
    have hssd := hother "ssd://" (by simp)
    cases h
    cases hplugin : contains link "plugin=" with
    | false => simp [linkKind, hvless, hvmess, htrojan, hss, hplugin]
    | true => simp [linkKind, hvless, hvmess, htrojan, hssd, hplugin]
  · exact Or.inl h

theorem contains_plugin_of_linkKind (h : linkKind link = some .ss) :
    contains link "plugin=" = false := by
  unfold linkKind at h
  split_ifs at h
  all_goals simp_all

theorem handedOver_of_ne_ssd (h : kind ≠ .ssd) : handedOver context link kind =
    some (Utils.jsonToString context.qt (deserialize context link kind).1,
      (deserialize context link kind).2.aliasName) := by
  cases kind with
  | ssd => exact absurd rfl h
  | vless | vmessNew | vmess | trojan | ss => simp only [handedOver]

theorem handedJson_of_linkKind (h : linkKind link = some kind) (hkind : kind ≠ .ssd)
    (hjson : ReadsJson context (deserialize context link kind).1) :
    handedJson context link = some (deserialize context link kind).1 := by
  simp [handedJson, h, handedOver_of_ne_ssd hkind, hjson.reads_back]

theorem handedJson_ssd (h : linkKind link = some .ssd) {root : QJsonObject}
    (hjson : ReadsJson context root) : handedJson context link = none := by
  unfold handedJson
  rw [h]
  cases hserver : handedOver context link .ssd with
  | none => simp [hserver]
  | some server =>
    obtain ⟨node, hnode, rfl⟩ := Option.map_eq_some_iff.mp hserver
    have hname := Ssd.deserialize_names (mem_of_head? hnode)
    obtain ⟨message, herror⟩ := hjson.rejects node.1 hname
    simp [hserver, herror]

end Handed

variable {context : ImportContext} {link : String} {kind : LinkKind}

theorem QJsonObject.insert_ne_nil {o : QJsonObject} {key text : String} :
    o.insert key (.string text) ≠ [] := by
  intro h
  have hvalue : (o.insert key (.string text)).value key = .string text :=
    QJsonObject.value_insert_self
  rw [h] at hvalue
  cases hvalue

theorem isEmpty_extractXrayConfig (configType : ConfigTypes) (data description : String) :
    (extractXrayConfig context configType data description).isEmpty = false :=
  List.isEmpty_eq_false_iff.mpr QJsonObject.insert_ne_nil

theorem extractConfigFromData_link (c : ImportController) (h : linkKind link = some kind)
    (hkind : kind ≠ .ssd) :
    c.extractConfigFromData context link = (true, { c with
      m_configType := kind.configType
      m_config := extractXrayConfig context kind.configType
        (Utils.jsonToString context.qt (deserialize context link kind).1)
        (deserialize context link kind).2.aliasName }) := by
  simp [ImportController.extractConfigFromData, h, handedOver_of_ne_ssd hkind,
    ImportController.offer, isEmpty_extractXrayConfig]

/-- No error of the reader makes the import fail, whatever the state of the controller is. -/
theorem rejected_link_never_fails (context : ImportContext) (c : ImportController)
    (h : linkKind link = some kind) (hkind : kind ≠ .ssd) :
    (deserialize context link kind).2.errMessage ≠ "" →
      ¬ ((c.extractConfigFromData context link).1 = false ∧
        (c.extractConfigFromData context link).2.m_config = []) := by
  intro _ hfails
  rw [extractConfigFromData_link c h hkind] at hfails
  cases hfails.1

/-- The link `vless://` is no URL. -/
theorem rejected_link_never_fails_vless :
    ¬ ((idleController.extractConfigFromData (linkContext QtRuntime.noUrl []) "vless://").1 = false ∧
      (idleController.extractConfigFromData (linkContext QtRuntime.noUrl [])
        "vless://").2.m_config = []) := by
  have hkind : linkKind "vless://" = some .vless := rfl
  exact rejected_link_never_fails _ idleController hkind (by decide) (by decide)

theorem rejected_link_imported :
    (deserialize (linkContext QtRuntime.noUrl []) "vless://" .vless).2.errMessage =
        "link parse failed: " ∧
      (idleController.extractConfigFromData (linkContext QtRuntime.noUrl []) "vless://").1 = true ∧
      (idleController.extractConfigFromData (linkContext QtRuntime.noUrl [])
        "vless://").2.m_config ≠ [] := by
  have hkind : linkKind "vless://" = some .vless := rfl
  rw [extractConfigFromData_link idleController hkind (by decide)]
  exact ⟨rfl, rfl, QJsonObject.insert_ne_nil⟩

end AmneziaVpn
