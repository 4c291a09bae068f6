import AmneziaVpn.ImportedTexts
import AmneziaVpn.TerminatedLines
import AmneziaVpn.WireguardServerConfig

/-!
# The configuration text of a WireGuard client

`createConfig` fills a template with the values of a new client, one variable after the other.
-/

namespace AmneziaVpn

open List QString

namespace ServerController

abbrev Vars := List (String × String)

def replaceVars (script : String) (vars : Vars) : String :=
  vars.foldl (fun s var => QString.replace s var.1 var.2) script

def otherNames : List String :=
  ["$REMOTE_HOST", "$OPENVPN_SUBNET_IP", "$OPENVPN_SUBNET_CIDR", "$OPENVPN_SUBNET_MASK",
    "$OPENVPN_PORT", "$OPENVPN_TRANSPORT_PROTO", "$OPENVPN_NCP_DISABLE", "$OPENVPN_CIPHER",
    "$OPENVPN_HASH", "$OPENVPN_TLS_AUTH", "$OPENVPN_TA_KEY", "$OPENVPN_ADDITIONAL_CLIENT_CONFIG",
    "$OPENVPN_ADDITIONAL_SERVER_CONFIG", "$SHADOWSOCKS_SERVER_PORT", "$SHADOWSOCKS_LOCAL_PORT",
    "$SHADOWSOCKS_CIPHER", "$CONTAINER_NAME", "$DOCKERFILE_FOLDER", "$CLOAK_SERVER_PORT",
    "$FAKE_WEB_SITE_ADDRESS", "$XRAY_SITE_NAME", "$XRAY_SERVER_PORT", "$IPSEC_VPN_L2TP_NET",
    "$IPSEC_VPN_L2TP_POOL", "$IPSEC_VPN_L2TP_LOCAL", "$IPSEC_VPN_XAUTH_NET",
    "$IPSEC_VPN_XAUTH_POOL", "$IPSEC_VPN_SHA2_TRUNCBUG", "$IPSEC_VPN_VPN_ANDROID_MTU_FIX",
    "$IPSEC_VPN_DISABLE_IKEV2", "$IPSEC_VPN_DISABLE_L2TP", "$IPSEC_VPN_DISABLE_XAUTH",
    "$IPSEC_VPN_C2C_TRAFFIC", "$PRIMARY_SERVER_DNS", "$SECONDARY_SERVER_DNS", "$SFTP_PORT",
    "$SFTP_USER", "$SFTP_PASSWORD", "$SOCKS5_PROXY_PORT", "$SOCKS5_USER", "$SOCKS5_AUTH_TYPE"]

/-- The variables of the other protocols, around those of WireGuard and AmneziaWG. -/
structure OtherVars where
  before : Vars
  between : Vars
  behind : Vars
  names : ∀ var ∈ before ++ between ++ behind, var.1 ∈ otherNames

def junkVariables : List (String × String) :=
  [("Jc", "$JUNK_PACKET_COUNT"), ("Jmin", "$JUNK_PACKET_MIN_SIZE"), ("Jmax", "$JUNK_PACKET_MAX_SIZE"),
    ("S1", "$INIT_PACKET_JUNK_SIZE"), ("S2", "$RESPONSE_PACKET_JUNK_SIZE"),
    ("H1", "$INIT_PACKET_MAGIC_HEADER"), ("H2", "$RESPONSE_PACKET_MAGIC_HEADER"),
    ("H3", "$UNDERLOAD_PACKET_MAGIC_HEADER"), ("H4", "$TRANSPORT_PACKET_MAGIC_HEADER")]

variable (config : QJsonObject)

def wireguardVars : Vars :=
  let wireguarConfig := (config.value "wireguard").toObject
  [("$WIREGUARD_SUBNET_IP", (wireguarConfig.value "subnet_address").toStringOr "10.8.1.0"),
    ("$WIREGUARD_SUBNET_CIDR", (wireguarConfig.value "subnet_cidr").toStringOr "24"),
    ("$WIREGUARD_SUBNET_MASK", (wireguarConfig.value "subnet_mask").toStringOr "255.255.255.0"),
    ("$WIREGUARD_SERVER_PORT", (wireguarConfig.value "port").toStringOr "51820")]

def awgVars : Vars :=
  let amneziaWireguarConfig := (config.value "awg").toObject
  ("$AWG_SERVER_PORT", (amneziaWireguarConfig.value "port").toStringOr "55424") ::
    junkVariables.map fun (key, name) => (name, (amneziaWireguarConfig.value key).toString)

/-- The address of the server is missing if its name cannot be resolved. -/
def genVarsForScript (others : OtherVars) (serverIp : String) (config : QJsonObject) : Vars :=
  others.before ++ wireguardVars config ++ others.between ++ awgVars config ++ others.behind ++
    if serverIp = "" then [] else [("$SERVER_IP_ADDRESS", serverIp)]

end ServerController

namespace WireguardConfigurator

open ServerController ImportedText
open BacktrackingRegex (firstCaptures firstCaptures_chars_of_not_infix)

variable (isAwg : Bool)

def portName : String := if isAwg then "$AWG_SERVER_PORT" else "$WIREGUARD_SERVER_PORT"

def assignments (entries : List (String × List String)) : List (List String) :=
  entries.map fun entry => entry.1 :: " = " :: entry.2

def interfaceTemplate : List (String × List String) :=
  [("Address", ["$WIREGUARD_CLIENT_IP", "/32"]), ("DNS", ["$PRIMARY_DNS", ", ", "$SECONDARY_DNS"]),
    ("PrivateKey", ["$WIREGUARD_CLIENT_PRIVATE_KEY"])] ++
    if isAwg then junkVariables.map fun (key, name) => (key, [name]) else []

def peerTemplate : List (String × List String) :=
  [("PublicKey", ["$WIREGUARD_SERVER_PUBLIC_KEY"]), ("PresharedKey", ["$WIREGUARD_PSK"]),
    ("AllowedIPs", ["0.0.0.0/0, ::/0"]), ("Endpoint", ["$SERVER_IP_ADDRESS", ":", portName isAwg]),
    ("PersistentKeepalive", ["25"])]

/-- The lines of `template.conf` of the two protocols, cut at the variables. -/
def template : List (List String) :=
  [["[Interface]"]] ++ assignments (interfaceTemplate isAwg) ++ [[], ["[Peer]"]] ++
    assignments (peerTemplate isAwg)

/-- What `createConfig` reads besides the result of `prepareWireguardConfig`. -/
structure ScriptContext where
  qt : QtRuntime
  others : OtherVars
  getIPAddress : String → String
  defaultMtu : String

variable (context : ScriptContext)

variable (c : Creation) (connData : ConnectionData)

def clientText : String :=
  let config := replaceVars (String.join ((template c.isAwg).flatMap (· ++ ["\n"])))
    (genVarsForScript context.others (context.getIPAddress c.hostName) c.containerConfig)
  let config := QString.replace config "$WIREGUARD_CLIENT_PRIVATE_KEY" connData.clientPrivKey
  let config := QString.replace config "$WIREGUARD_CLIENT_IP" connData.clientIP
  let config := QString.replace config "$WIREGUARD_SERVER_PUBLIC_KEY" connData.serverPubKey
  QString.replace config "$WIREGUARD_PSK" connData.pskKey

def jConfig : QJsonObject :=
  let wireguarConfig := (c.containerConfig.value "wireguard").toObject
  QJsonObject.insert [] "config" (.string (clientText context c connData))
    |>.insert "hostName" (.string connData.host)
    |>.insert "port" (.double (QString.toInt connData.port))
    |>.insert "client_priv_key" (.string connData.clientPrivKey)
    |>.insert "client_ip" (.string connData.clientIP)
    |>.insert "client_pub_key" (.string connData.clientPubKey)
    |>.insert "psk_key" (.string connData.pskKey)
    |>.insert "server_pub_key" (.string connData.serverPubKey)
    |>.insert "mtu" (.string ((wireguarConfig.value "mtu").toStringOr context.defaultMtu))
    |>.insert "clientId" (.string connData.clientPubKey)

/-- The text that is returned, and `wg0.conf` afterwards. -/
def createConfig (stdOut file : String) : Except ErrorCode String × String :=
  match prepareWireguardConfig c stdOut file with
  | (.error e, file) => (.error e, file)
  | (.ok connData, file) => (.ok (context.qt.indented (jConfig context c connData)), file)

section Filling

def filled (vars : Vars) (s : List Char) : List Char :=
  vars.foldl (fun s var => replaceFrom var.1.toList var.2.toList 0 s) s

theorem toList_replaceVars (script : String) (vars : Vars) :
    (replaceVars script vars).toList = filled vars script.toList := by
  unfold replaceVars filled
  induction vars generalizing script with
  | nil => rfl
  | cons var vars ih =>
    rw [foldl_cons, foldl_cons, ih, QString.replace, String.toList_ofList]

def chars (pieces : List String) : List Char := pieces.flatMap String.toList

def value (vars : Vars) (piece : String) : String := (vars.lookup piece).getD piece

/-- The dollar is the first character and no other one. -/
def isVariable (name : String) : Bool := name.toList.head? = some '$' && '$' ∉ name.toList.tail

variable {name : String}

theorem isVariable_cases (h : isVariable name = true) : ∃ n, name.toList = '$' :: n ∧ '$' ∉ n := by
  simp only [isVariable, Bool.and_eq_true, decide_eq_true_eq] at h
  obtain ⟨n, hn⟩ := head?_eq_some_iff.mp h.1
  exact ⟨n, hn, by simpa [hn] using h.2⟩

variable {piece : String}

theorem ne_of_isVariable (h : isVariable name = true) (hpiece : '$' ∉ piece.toList) :
    piece ≠ name := by
  obtain ⟨n, hn, -⟩ := isVariable_cases h
  rintro rfl
  exact hpiece (by simp [hn])

def apart (m n : String) : Bool := !(m.toList.isPrefixOf n.toList || n.toList.isPrefixOf m.toList)

theorem not_prefix_of_apart {key : String} (h : apart key name = true) (r : List Char) :
    ¬ key.toList <+: name.toList ++ r := by
  simp only [apart, Bool.not_eq_true', Bool.or_eq_false_iff] at h
  intro hpre
  rcases prefix_or_prefix_of_prefix hpre (prefix_append name.toList r) with hp | hp
  · rw [ isPrefixOf_iff_prefix.mpr hp] at h
    cases h.1
  · rw [ isPrefixOf_iff_prefix.mpr hp] at h
    cases h.2

variable {vars : Vars} {pieces : List String}

theorem replaceFrom_chars {key after : String} (hkey : isVariable key = true)
    (h : ∀ p ∈ pieces, '$' ∉ p.toList ∨ isVariable p = true ∧ (p = key ∨ apart key p = true)) :
    replaceFrom key.toList after.toList 0 (chars pieces) =
      chars (pieces.map fun p => if p = key then after else p) := by
  obtain ⟨k, hk, -⟩ := isVariable_cases hkey
  induction pieces with
  | nil => rfl
  | cons p pieces ih =>
    obtain ⟨hp, hpieces⟩ := forall_mem_cons.mp h
    specialize ih hpieces
    unfold chars at ih ⊢
    rw [map_cons, flatMap_cons, flatMap_cons, ← ih]
    rcases hp with hplain | ⟨hvar, rfl | hapart⟩
    · rw [if_neg (ne_of_isVariable hkey hplain), hk, replaceFrom_append hplain]
    · rw [if_pos rfl, hk, replaceFrom_append_left]
    · obtain ⟨n, hn, hdollar⟩ := isVariable_cases hvar
      have hpre := not_prefix_of_apart hapart (pieces.flatMap String.toList)
      have hne : p ≠ key := by
        rintro rfl
        exact hpre (prefix_append _ _)
      rw [if_neg hne]
      rw [hn, cons_append] at hpre ⊢
      rw [replaceFrom, if_neg hpre, hk, replaceFrom_append hdollar, cons_append]

theorem lookup_of_plain (hvars : ∀ var ∈ vars, isVariable var.1 = true)
    (hpiece : '$' ∉ piece.toList) : vars.lookup piece = none := by
  rw [lookup_eq_none_iff]
  intro var hvar
  exact bne_iff_ne.mpr (ne_of_isVariable (hvars var hvar) hpiece)

theorem value_of_plain (hvars : ∀ var ∈ vars, isVariable var.1 = true) (hpiece : '$' ∉ piece.toList) :
    value vars piece = piece := by
  rw [value, lookup_of_plain hvars hpiece, Option.getD_none]

theorem filled_chars (hvars : ∀ var ∈ vars, isVariable var.1 = true)
    (h : ∀ p ∈ pieces, '$' ∉ p.toList ∨ isVariable p = true ∧
      (∀ var ∈ vars, p = var.1 ∨ apart var.1 p = true) ∧
      ∀ v, vars.lookup p = some v → '$' ∉ v.toList) :
    filled vars (chars pieces) = chars (pieces.map (value vars)) := by
  induction vars generalizing pieces with
  | nil => exact congrArg chars (map_id' pieces).symm
  | cons var vars ih =>
    obtain ⟨name, after⟩ := var
    obtain ⟨hname, hrest⟩ := forall_mem_cons.mp hvars
    have hafter : ∀ p ∈ pieces, p = name → '$' ∉ after.toList := by
      rintro p hp rfl
      rcases h p hp with hplain | ⟨-, -, hvalue⟩
      · exact absurd rfl (ne_of_isVariable hname hplain)
      · exact hvalue after lookup_cons_self
    have hreplaced := @replaceFrom_chars pieces name after hname fun p hp =>
      (h p hp).imp_right fun hp => ⟨hp.1, hp.2.1 _ mem_cons_self⟩
    rw [filled, foldl_cons, hreplaced, ← filled, ih hrest, map_map]
    · congr 1
      apply map_congr_left
      intro p hp
      by_cases heq : p = name
      · simp [value, heq, lookup_of_plain hrest (hafter p hp heq)]
      · simp [value, heq, lookup_cons, beq_false_of_ne heq]
    · rw [forall_mem_map]
      intro p hp
      by_cases heq : p = name
      · rw [if_pos heq]
        exact Or.inl (hafter p hp heq)
      · rw [if_neg heq]
        rcases h p hp with hplain | ⟨hvar, hvars, hvalue⟩
        · exact Or.inl hplain
        · refine Or.inr ⟨hvar, fun var hmem => hvars var (mem_cons_of_mem _ hmem), ?_⟩
          simpa [lookup_cons, beq_false_of_ne heq] using hvalue

end Filling

section Names

def ownNames : List String :=
  ["$WIREGUARD_SUBNET_IP", "$WIREGUARD_SUBNET_CIDR", "$WIREGUARD_SUBNET_MASK",
    "$WIREGUARD_SERVER_PORT", "$AWG_SERVER_PORT"] ++ junkVariables.map Prod.snd ++
  ["$SERVER_IP_ADDRESS", "$WIREGUARD_CLIENT_PRIVATE_KEY", "$WIREGUARD_CLIENT_IP",
    "$WIREGUARD_SERVER_PUBLIC_KEY", "$WIREGUARD_PSK"]

def dnsNames : List String := ["$PRIMARY_DNS", "$SECONDARY_DNS"]

def usedNames (isAwg : Bool) : List String :=
  [portName isAwg, "$SERVER_IP_ADDRESS", "$WIREGUARD_CLIENT_PRIVATE_KEY", "$WIREGUARD_CLIENT_IP",
    "$WIREGUARD_SERVER_PUBLIC_KEY", "$WIREGUARD_PSK"] ++
    if isAwg then junkVariables.map Prod.snd else []

theorem apart_names : ∀ name ∈ otherNames ++ ownNames ++ dnsNames, isVariable name = true ∧
    ∀ m ∈ otherNames ++ ownNames, name = m ∨ apart m name = true := by
  decide +kernel

theorem not_mem_otherNames : ∀ name ∈ ownNames, name ∉ otherNames := by decide +kernel

theorem not_mem_dnsNames : ∀ name ∈ otherNames ++ ownNames, name ∉ dnsNames := by decide +kernel

theorem nodup_ownNames : ownNames.Nodup := by decide +kernel

theorem usedNames_subset (isAwg : Bool) : ∀ name ∈ usedNames isAwg, name ∈ ownNames := by
  cases isAwg <;> decide +kernel

theorem template_cases (isAwg : Bool) : ∀ p ∈ (template isAwg).flatMap (· ++ ["\n"]),
    '$' ∉ p.toList ∨ p ∈ dnsNames ∨ p ∈ usedNames isAwg := by
  cases isAwg <;> decide +kernel

variable (context : ScriptContext) (c : Creation) (connData : ConnectionData)

def serverVars : Vars := [("$SERVER_IP_ADDRESS", context.getIPAddress c.hostName)]

def keyVars : Vars :=
  [("$WIREGUARD_CLIENT_PRIVATE_KEY", connData.clientPrivKey),
    ("$WIREGUARD_CLIENT_IP", connData.clientIP),
    ("$WIREGUARD_SERVER_PUBLIC_KEY", connData.serverPubKey), ("$WIREGUARD_PSK", connData.pskKey)]

/-- All variables, in the order in which they are replaced. -/
def clientVars : Vars :=
  genVarsForScript context.others (context.getIPAddress c.hostName) c.containerConfig ++
    keyVars connData

def ownVars : Vars :=
  wireguardVars c.containerConfig ++ awgVars c.containerConfig ++ serverVars context c ++
    keyVars connData

theorem map_fst_ownVars : (ownVars context c connData).map Prod.fst = ownNames := rfl

def junkValue (c : Creation) (key : String) : String :=
  ((c.containerConfig.value "awg").toObject.value key).toString

def serverPort (c : Creation) : String :=
  if c.isAwg then ((c.containerConfig.value "awg").toObject.value "port").toStringOr "55424"
  else ((c.containerConfig.value "wireguard").toObject.value "port").toStringOr "51820"

def clientValues : Vars :=
  serverVars context c ++ keyVars connData ++
    if c.isAwg then junkVariables.map fun (key, name) => (name, junkValue c key) else []

/-- The values stand in a line and in a template as they are, and the port is a number. -/
structure PlainValues : Prop where
  plain : ∀ var ∈ clientValues context c connData, ImportedText.Plain var.2 ∧ '$' ∉ var.2.toList
  port : ∀ d ∈ (serverPort c).toList, d.isDigit = true

theorem map_fst_clientValues :
    ((portName c.isAwg, serverPort c) :: clientValues context c connData).map Prod.fst =
      usedNames c.isAwg := by
  unfold clientValues usedNames
  cases c.isAwg <;> rfl

variable {context c connData}

theorem PlainValues.serverIp_ne (h : PlainValues context c connData) :
    context.getIPAddress c.hostName ≠ "" :=
  (h.plain _ mem_cons_self).1.nonempty

theorem lookup_clientVars (hip : context.getIPAddress c.hostName ≠ "") {name : String}
    (hname : name ∉ otherNames) :
    (clientVars context c connData).lookup name = (ownVars context c connData).lookup name := by
  have hother : ∀ vars : Vars, vars ⊆ context.others.before ++ context.others.between ++
      context.others.behind → vars.lookup name = none := by
    intro vars hvars
    rw [lookup_eq_none_iff]
    rintro var hvar
    rw [bne_iff_ne]
    rintro rfl
    exact hname (context.others.names var (hvars hvar))
  have hbefore := hother context.others.before (by simp)
  have hbetween := hother context.others.between (by simp)
  have hbehind := hother context.others.behind (by simp)
  unfold clientVars genVarsForScript ownVars
  rw [if_neg hip]
  simp only [lookup_append, hbefore, hbetween, hbehind, Option.none_or, Option.or_none]
  rfl

theorem fst_mem_genVarsForScript (others : OtherVars) (serverIp : String) (config : QJsonObject) :
    ∀ var ∈ genVarsForScript others serverIp config, var.1 ∈ otherNames ++ ownNames := by
  have hothers := fun var hvar => mem_append_left ownNames (others.names var hvar)
  have hfst : (wireguardVars config ++ awgVars config ++ [("$SERVER_IP_ADDRESS", serverIp)]).map
      Prod.fst = ownNames.take 15 := rfl
  have hown : ∀ var ∈ wireguardVars config ++ awgVars config ++ [("$SERVER_IP_ADDRESS", serverIp)],
      var.1 ∈ otherNames ++ ownNames := fun var hvar =>
    mem_append_right _ (mem_of_mem_take (hfst ▸ mem_map_of_mem hvar))
  simp only [forall_mem_append] at hothers hown
  simp only [genVarsForScript, forall_mem_append]
  refine ⟨⟨⟨⟨⟨hothers.1.1, hown.1.1⟩, hothers.1.2⟩, hown.1.2⟩, hothers.2⟩, ?_⟩
  split_ifs
  · simp
  · exact hown.2

theorem fst_mem_clientVars : ∀ var ∈ clientVars context c connData, var.1 ∈ otherNames ++ ownNames := by
  have hkeys : (keyVars connData).map Prod.fst = ownNames.drop 15 := rfl
  rw [clientVars, forall_mem_append]
  exact ⟨fst_mem_genVarsForScript _ _ _, fun var hvar =>
    mem_append_right _ (mem_of_mem_drop (hkeys ▸ mem_map_of_mem hvar))⟩

theorem isVariable_clientVars :
    ∀ var ∈ clientVars context c connData, isVariable var.1 = true := fun var hvar =>
  (apart_names _ (mem_append_left _ (fst_mem_clientVars var hvar))).1

theorem lookup_clientValues (hip : context.getIPAddress c.hostName ≠ "") {var : String × String}
    (hvar : var ∈ (portName c.isAwg, serverPort c) :: clientValues context c connData) :
    (clientVars context c connData).lookup var.1 = some var.2 := by
  have hmem : var ∈ ownVars context c connData := by
    simp only [clientValues, portName, serverPort, mem_cons, mem_append] at hvar
    simp only [ownVars, awgVars, wireguardVars, mem_cons, mem_append]
    cases hawg : c.isAwg with
    | true =>
      simp only [hawg, if_true] at hvar
      rcases hvar with hport | (hserver | hkey) | hjunk
      · exact Or.inl (Or.inl (Or.inr (Or.inl hport)))
      · exact Or.inl (Or.inr hserver)
      · exact Or.inr hkey
      · exact Or.inl (Or.inl (Or.inr (Or.inr hjunk)))
    | false =>
      simp only [hawg, Bool.false_eq_true, if_false, not_mem_nil, or_false] at hvar
      rcases hvar with hport | hserver | hkey
      · exact Or.inl (Or.inl (Or.inl (Or.inr (Or.inr (Or.inr (Or.inl hport))))))
      · exact Or.inl (Or.inr hserver)
      · exact Or.inr hkey
  have hname : var.1 ∈ ownNames := map_fst_ownVars context c connData ▸ mem_map_of_mem hmem
  rw [lookup_clientVars hip (not_mem_otherNames _ hname),
    ← reverse_reverse (ownVars context c connData)]
  apply lookup_reverse_of_mem
  · rw [map_reverse, nodup_reverse]
    exact nodup_ownNames
  · exact mem_reverse.mpr hmem

theorem lookup_dnsNames {name : String} (hname : name ∈ dnsNames) :
    (clientVars context c connData).lookup name = none := by
  rw [lookup_eq_none_iff]
  intro var hvar
  rw [bne_iff_ne]
  rintro rfl
  exact not_mem_dnsNames _ (fst_mem_clientVars var hvar) hname

end Names

section Lines

open TerminatedLines (unlines splitOn_unlines)

variable {context : ScriptContext} {c : Creation} {connData : ConnectionData}

variable (vars : Vars)

def render (line : List String) : String := String.join (line.map (value vars))

theorem toList_clientText (h : PlainValues context c connData) :
    (clientText context c connData).toList = unlines '\n' ((template c.isAwg).map fun line =>
      (render (clientVars context c connData) line).toList) := by
  have hvars := @isVariable_clientVars context c connData
  have hreplaced : clientText context c connData =
      replaceVars (String.join ((template c.isAwg).flatMap (· ++ ["\n"])))
        (clientVars context c connData) := by
    unfold clientText clientVars replaceVars
    rw [foldl_append]
    rfl
  have hnewline : value (clientVars context c connData) "\n" = "\n" := value_of_plain hvars (by decide)
  rw [hreplaced, toList_replaceVars, String.toList_join, ← chars, filled_chars hvars]
  · simp [unlines, render, chars, map_flatMap, flatMap_map, flatMap_assoc, hnewline]
  · intro p hp
    rcases template_cases c.isAwg p hp with hplain | hname
    · exact Or.inl hplain
    have hmem : p ∈ otherNames ++ ownNames ++ dnsNames := mem_append.mpr
      (hname.symm.imp_left fun hused => mem_append_right _ (usedNames_subset c.isAwg p hused))
    obtain ⟨hisVariable, hapart⟩ := apart_names p hmem
    refine Or.inr ⟨hisVariable, fun var hvar => hapart _ (fst_mem_clientVars var hvar), ?_⟩
    intro v hv
    rcases hname with hdns | hused
    · rw [lookup_dnsNames hdns] at hv
      cases hv
    · rw [← map_fst_clientValues context c connData] at hused
      obtain ⟨var, hvar, rfl⟩ := mem_map.mp hused
      rw [lookup_clientValues h.serverIp_ne hvar, Option.some_inj] at hv
      rw [← hv]
      rcases mem_cons.mp hvar with rfl | hvar
      · exact fun hdollar => absurd (h.port _ hdollar) (by decide)
      · exact (h.plain var hvar).2

def entries (template : List (String × List String)) : List (String × String) :=
  template.map fun entry => (entry.1, render vars entry.2)

theorem render_cons (p : String) (line : List String) :
    render vars (p :: line) = value vars p ++ render vars line := by
  apply String.toList_injective
  simp [render]

theorem map_render_assignments {vars : Vars} (hvars : ∀ var ∈ vars, isVariable var.1 = true)
    {template : List (String × List String)} (hkeys : ∀ entry ∈ template, isKey entry.1 = true) :
    (assignments template).map (render vars) = writtenLines (entries vars template) := by
  unfold assignments writtenLines entries
  rw [map_map, map_map]
  apply map_congr_left
  intro entry hentry
  have hkey : '$' ∉ entry.1.toList := fun hmem => (of_mem_isKey (hkeys entry hentry) hmem).2.2 rfl
  rw [Function.comp_apply, Function.comp_apply, render_cons, render_cons, value_of_plain hvars hkey,
    value_of_plain hvars (by decide), ← String.append_assoc]

def allAssignments (isAwg : Bool) : List (String × List String) :=
  interfaceTemplate isAwg ++ peerTemplate isAwg

def composed (isAwg : Bool) : List (List String) :=
  [["$WIREGUARD_CLIENT_IP", "/32"], ["$PRIMARY_DNS", ", ", "$SECONDARY_DNS"], ["0.0.0.0/0, ::/0"],
    ["$SERVER_IP_ADDRESS", ":", portName isAwg], ["25"]]

theorem allAssignments_cases (isAwg : Bool) : ∀ entry ∈ allAssignments isAwg,
    isKey entry.1 = true ∧ (entry.2 ∈ composed isAwg ∨ ∃ name ∈ (usedNames isAwg).tail, entry.2 = [name]) := by
  cases isAwg <;> decide +kernel

theorem mem_junk (hawg : c.isAwg = true) {key : String} (hkey : key ∈ junkKeys) : ∃ name,
    (key, [name]) ∈ allAssignments c.isAwg ∧ (name, junkValue c key) ∈ clientValues context c connData := by
  have hkeys : junkKeys = junkVariables.map Prod.fst := rfl
  rw [hkeys] at hkey
  obtain ⟨p, hp, rfl⟩ := mem_map.mp hkey
  rw [hawg, clientValues, if_pos hawg]
  refine ⟨p.2, mem_append_left _ (mem_append_right _ ?_), mem_append_right _ ?_⟩
  · exact mem_map_of_mem (f := fun p => (p.1, [p.2])) hp
  · exact mem_map_of_mem (f := fun p => (p.2, junkValue c p.1)) hp

variable (h : PlainValues context c connData)

include h

variable {name v : String}

theorem value_clientVars
    (hmem : (name, v) ∈ (portName c.isAwg, serverPort c) :: clientValues context c connData) :
    value (clientVars context c connData) name = v := by
  rw [value, lookup_clientValues h.serverIp_ne hmem, Option.getD_some]

theorem render_singleton (hmem : (name, v) ∈ clientValues context c connData) :
    render (clientVars context c connData) [name] = v := by
  simp [render, value_clientVars h (mem_cons_of_mem _ hmem)]

theorem render_address : render (clientVars context c connData) ["$WIREGUARD_CLIENT_IP", "/32"] =
    connData.clientIP ++ "/32" := by
  have hvars := @isVariable_clientVars context c connData
  have hip : ("$WIREGUARD_CLIENT_IP", connData.clientIP) ∈ clientValues context c connData :=
    mem_append_left _ (.tail _ (.tail _ (.head _)))
  rw [render_cons, value_clientVars h (mem_cons_of_mem _ hip)]
  simp [render, value_of_plain hvars]

theorem render_endpoint :
    render (clientVars context c connData) ["$SERVER_IP_ADDRESS", ":", portName c.isAwg] =
      context.getIPAddress c.hostName ++ ":" ++ serverPort c := by
  have hvars := @isVariable_clientVars context c connData
  rw [render_cons, value_clientVars h (.tail _ (.head _)), render_cons, value_of_plain hvars (by decide),
    ← String.append_assoc]
  simp [render, value_clientVars h (.head _)]

theorem plain_endpoint : ImportedText.Plain (context.getIPAddress c.hostName ++ ":" ++ serverPort c) := by
  have hsuff : (":" ++ serverPort c).toList = ':' :: (serverPort c).toList := by simp
  have hspace : ∀ d ∈ ':' :: (serverPort c).toList, QString.isSpace d = false := by
    rw [forall_mem_cons]
    exact ⟨by decide, fun d hd => isSpace_of_isDigit (h.port d hd)⟩
  rw [String.append_assoc]
  apply (h.plain _ mem_cons_self).1.append hsuff (by decide)
  · intro hinf
    exact absurd (h.port ' ' (hinf.subset (by decide))) (by decide)
  · rw [hsuff]
    exact fun d hd => hspace d (mem_of_getLast? hd)
  · rw [hsuff]
    exact fun hmem => absurd (hspace _ hmem) (by decide)

theorem plain_entries : ∀ entry ∈ entries (clientVars context c connData) (allAssignments c.isAwg),
    isKey entry.1 = true ∧ ImportedText.Plain entry.2 := by
  have hvars := @isVariable_clientVars context c connData
  have hdns : ∀ name ∈ dnsNames, value (clientVars context c connData) name = name :=
    fun name hname => by rw [value, lookup_dnsNames hname, Option.getD_none]
  have hcomposed : ∀ line ∈ composed c.isAwg, ImportedText.Plain (render (clientVars context c connData) line) := by
    simp only [composed, forall_mem_cons, render_address h, render_endpoint h]
    refine ⟨?_, ?_, ?_, plain_endpoint h, ?_, by simp⟩
    · have hends : ∀ c ∈ "/32".toList.getLast?, QString.isSpace c = false := by
        rintro c ⟨⟩
        decide
      exact (h.plain _ (mem_append_left _ (.tail _ (.tail _ (.head _))))).1.append rfl (by decide)
        (by decide) hends (by decide)
    · simp only [dnsNames, forall_mem_cons] at hdns
      have hcomma : value (clientVars context c connData) ", " = ", " := value_of_plain hvars (by decide)
      simp only [render, map_cons, map_nil, hdns, hcomma]
      decide
    · rw [render, map_singleton, value_of_plain hvars (by decide)]
      decide
    · rw [render, map_singleton, value_of_plain hvars (by decide)]
      decide
  unfold entries
  rw [forall_mem_map]
  intro entry hentry
  obtain ⟨hkey, hline | ⟨name, hname, hline⟩⟩ := allAssignments_cases c.isAwg entry hentry
  · exact ⟨hkey, hcomposed _ hline⟩
  · rw [← map_fst_clientValues context c connData] at hname
    obtain ⟨var, hvar, rfl⟩ := mem_map.mp hname
    rw [hline, render_singleton h hvar]
    exact ⟨hkey, (h.plain var hvar).1⟩

theorem lines_clientText : lines (clientText context c connData) =
    ["[Interface]"] ++ writtenLines (entries (clientVars context c connData) (interfaceTemplate c.isAwg)) ++
      ["", "[Peer]"] ++ writtenLines (entries (clientVars context c connData) (peerTemplate c.isAwg)) ++
        [""] := by
  have hvars := @isVariable_clientVars context c connData
  have hkeys := fun entry hentry => (allAssignments_cases c.isAwg entry hentry).1
  have hplain := plain_entries h
  simp only [allAssignments, entries, map_append, forall_mem_append] at hkeys hplain
  have hrendered : (template c.isAwg).map (render (clientVars context c connData)) =
      ["[Interface]"] ++ writtenLines (entries (clientVars context c connData) (interfaceTemplate c.isAwg)) ++
        ["", "[Peer]"] ++ writtenLines (entries (clientVars context c connData) (peerTemplate c.isAwg)) := by
    rw [template, map_append, map_append, map_append, map_render_assignments hvars hkeys.1,
      map_render_assignments hvars hkeys.2]
    simp [render, value_of_plain hvars]
  rw [lines, split_eq (c := '\n') rfl, toList_clientText h, ← Function.comp_def,
    ← map_map, hrendered, splitOn_unlines]
  · simp
  · simp only [forall_mem_map, forall_mem_append]
    exact ⟨⟨⟨by decide, newline_written hplain.1⟩, by decide⟩, newline_written hplain.2⟩

theorem wireGuardMap_eq_lookup (key : String) : wireGuardMap (clientText context c connData) key =
    ((entries (clientVars context c connData) (allAssignments c.isAwg)).reverse.lookup key).getD "" := by
  have hplain := plain_entries h
  simp only [allAssignments, entries, map_append, forall_mem_append] at hplain
  have hheader : ["[Interface]"].filterMap assignment = [] := by decide
  have hsection : ["", "[Peer]"].filterMap assignment = [] := by decide
  have hempty : [""].filterMap assignment = [] := by decide
  rw [wireGuardMap_eq, lines_clientText h, ImportedText.assigned]
  simp only [filterMap_append, hheader, hsection, hempty, nil_append, append_nil, entries,
    filterMap_written hplain.1, filterMap_written hplain.2, allAssignments, map_append]

variable {key : String}

theorem wireGuardMap_clientText {line : List String} (hmem : (key, line) ∈ allAssignments c.isAwg) :
    wireGuardMap (clientText context c connData) key = render (clientVars context c connData) line := by
  have hkeys : ((allAssignments c.isAwg).map Prod.fst).Nodup := by cases c.isAwg <;> decide
  have hnodup : ((entries (clientVars context c connData) (allAssignments c.isAwg)).map Prod.fst).Nodup := by
    rwa [entries, map_map]
  rw [wireGuardMap_eq_lookup h, lookup_reverse_of_mem hnodup (mem_map_of_mem hmem), Option.getD_some]

theorem wireGuardMap_singleton (hmem : (key, [name]) ∈ allAssignments c.isAwg)
    (hvalue : (name, v) ∈ clientValues context c connData) :
    wireGuardMap (clientText context c connData) key = v := by
  rw [wireGuardMap_clientText h hmem, render_singleton h hvalue]

theorem wireGuardMap_ne {line : List String} (hmem : (key, line) ∈ allAssignments c.isAwg) :
    wireGuardMap (clientText context c connData) key ≠ "" := by
  rw [wireGuardMap_clientText h hmem]
  exact (plain_entries h _ (mem_map_of_mem hmem)).2.nonempty

theorem isAwg_clientText :
    ImportedText.isAwg (wireGuardMap (clientText context c connData)) = c.isAwg := by
  cases hawg : c.isAwg with
  | true =>
    apply all_eq_true.mpr
    intro key hkey
    obtain ⟨name, hmem, -⟩ := @mem_junk context c connData hawg key hkey
    exact decide_eq_true (wireGuardMap_ne h hmem)
  | false =>
    have hempty : wireGuardMap (clientText context c connData) "Jc" = "" := by
      rw [wireGuardMap_eq_lookup h, hawg]
      rfl
    simp [ImportedText.isAwg, junkKeys, hempty]

theorem captured_clientText :
    captured wireGuardEndpoint 1 (clientText context c connData) =
        some (context.getIPAddress c.hostName) ∧
      captured wireGuardEndpoint 2 (clientText context c connData) = some (serverPort c) := by
  have hkeys : ∀ isAwg, ∀ entry ∈ interfaceTemplate isAwg ++ (peerTemplate isAwg).take 3,
      entry ∈ allAssignments isAwg ∧ 'E' ∉ entry.1.toList := by
    intro isAwg
    cases isAwg <;> decide +kernel
  have hwritten : ∀ line ∈ writtenLines (entries (clientVars context c connData)
      (interfaceTemplate c.isAwg ++ (peerTemplate c.isAwg).take 3)),
      firstCaptures wireGuardEndpoint line.toList = none := by
    apply firstCaptures_written
    unfold entries
    rw [forall_mem_map]
    intro entry hentry
    obtain ⟨hmem, hE⟩ := hkeys c.isAwg entry hentry
    exact ⟨hE, (plain_entries h _ (mem_map_of_mem hmem)).2⟩
  have hclosed : ∀ line ∈ ["[Interface]", "", "[Peer]"],
      firstCaptures wireGuardEndpoint line.toList = none := by
    have hinf : ∀ line ∈ ["[Interface]", "", "[Peer]"], ¬ "Endpoint = ".toList <:+: line.toList := by
      decide
    exact fun line hline => firstCaptures_chars_of_not_infix (hinf line hline)
  have hbefore : ∀ line ∈ ["[Interface]"] ++ writtenLines (entries (clientVars context c connData)
      (interfaceTemplate c.isAwg)) ++ ["", "[Peer]"] ++ writtenLines (entries (clientVars context c connData)
        ((peerTemplate c.isAwg).take 3)), firstCaptures wireGuardEndpoint line.toList = none := by
    simp only [writtenLines, entries, map_append, forall_mem_append, forall_mem_cons] at hwritten hclosed ⊢
    exact ⟨⟨⟨⟨hclosed.1, by simp⟩, hwritten.1⟩, hclosed.2⟩, hwritten.2⟩
  have hpeer : writtenLines (entries (clientVars context c connData) (peerTemplate c.isAwg)) ++ [""] =
      writtenLines (entries (clientVars context c connData) ((peerTemplate c.isAwg).take 3)) ++
        ("Endpoint" ++ " = " ++ (context.getIPAddress c.hostName ++ ":" ++ serverPort c)) ::
          ["PersistentKeepalive" ++ " = " ++ render (clientVars context c connData) ["25"], ""] := by
    rw [← render_endpoint h]
    rfl
  rw [captured_eq wireGuardEndpoint_avoids, captured_eq wireGuardEndpoint_avoids, lines_clientText h,
    append_assoc _ (writtenLines _), hpeer, ← append_assoc, found_append_of_none hbefore,
    found_append_of_none hbefore]
  exact found_endpoint (h.plain _ mem_cons_self).1.newline h.port _

end Lines

section Import

variable {context : ScriptContext} {c : Creation} {connData : ConnectionData}

/-- An import of the text returns its values, the address with the length of its network. -/
structure Recovered (importContext : ImportContext) (context : ScriptContext) (c : Creation)
    (connData : ConnectionData) (config lastConfig : QJsonObject) : Prop where
  hostName : config.value "hostName" = .string (context.getIPAddress c.hostName)
  last_config : (protocolConfig config (if c.isAwg then "awg" else "wireguard")).value "last_config" =
    .string (importContext.qt.indented lastConfig)
  port : (protocolConfig config (if c.isAwg then "awg" else "wireguard")).value "port" =
    .string (serverPort c)
  last_hostName : lastConfig.value "hostName" = .string (context.getIPAddress c.hostName)
  last_port : lastConfig.value "port" = .double (QString.toInt (serverPort c))
  client_priv_key : lastConfig.value "client_priv_key" = .string connData.clientPrivKey
  client_ip : lastConfig.value "client_ip" = .string (connData.clientIP ++ "/32")
  psk_key : lastConfig.value "psk_key" = .string connData.pskKey
  server_pub_key : lastConfig.value "server_pub_key" = .string connData.serverPubKey
  junk : c.isAwg = true → ∀ key ∈ junkKeys, lastConfig.value key = .string (junkValue c key)

theorem recovered_clientText (h : PlainValues context c connData) (importContext : ImportContext)
    (configType : ConfigTypes) :
    ∃ config lastConfig, extractWireGuardConfig importContext (clientText context c connData)
        configType = some (config, if c.isAwg then .Awg else configType) ∧
      Recovered importContext context c connData config lastConfig := by
  obtain ⟨hone, htwo⟩ := captured_clientText h
  have hpriv : ("PrivateKey", ["$WIREGUARD_CLIENT_PRIVATE_KEY"]) ∈ allAssignments c.isAwg :=
    mem_append_left _ (.tail _ (.tail _ (.head _)))
  have haddress : ("Address", ["$WIREGUARD_CLIENT_IP", "/32"]) ∈ allAssignments c.isAwg := .head _
  have hpub : ("PublicKey", ["$WIREGUARD_SERVER_PUBLIC_KEY"]) ∈ allAssignments c.isAwg :=
    mem_append_right _ (.head _)
  have hpsk : ("PresharedKey", ["$WIREGUARD_PSK"]) ∈ allAssignments c.isAwg :=
    mem_append_right _ (.tail _ (.head _))
  have hkey {var : String × String} (hvar : var ∈ keyVars connData) :
      var ∈ clientValues context c connData :=
    mem_append_left _ (mem_append_right _ hvar)
  obtain ⟨config, hextract, hhost, hlast, hport⟩ :=
    extractWireGuardConfig_eq importContext configType hone htwo
      ⟨wireGuardMap_ne h hpriv, wireGuardMap_ne h haddress, wireGuardMap_ne h hpub⟩
  rw [isAwg_clientText h] at hextract hlast hport
  obtain ⟨hlastHost, hlastPort, hlastPriv, hlastIp, hlastPsk, hlastPub⟩ :=
    value_lastConfig (clientText context c connData) (context.getIPAddress c.hostName) (serverPort c)
  refine ⟨config, _, hextract, hhost, hlast, hport, hlastHost, hlastPort, ?_, ?_, ?_, ?_, ?_⟩
  · rw [hlastPriv, wireGuardMap_singleton h hpriv (hkey (.head _))]
  · rw [hlastIp, wireGuardMap_clientText h haddress, render_address h]
  · rw [hlastPsk, pskKey, if_pos (wireGuardMap_ne h hpsk),
      wireGuardMap_singleton h hpsk (hkey (.tail _ (.tail _ (.tail _ (.head _)))))]
  · rw [hlastPub, wireGuardMap_singleton h hpub (hkey (.tail _ (.tail _ (.head _))))]
  · intro hawg key hkey
    obtain ⟨name, hmem, hvalue⟩ := mem_junk hawg hkey
    rw [value_lastConfig_junk hkey (by rw [isAwg_clientText h, hawg]),
      wireGuardMap_singleton h hmem hvalue]

theorem createConfig_of_prepared {stdOut file file' : String}
    (hprepared : prepareWireguardConfig c stdOut file = (.ok connData, file')) :
    createConfig context c stdOut file = (.ok (context.qt.indented (jConfig context c connData)), file') ∧
      ((jConfig context c connData).value "config").toString = clientText context c connData := by
  constructor
  · rw [createConfig, hprepared]
  · simp [jConfig, QJsonValue.toString]

/-- The values of the text that is created for a client are imported again. -/
theorem recovered_of_createConfig {stdOut file file' : String} {importContext : ImportContext}
    {configType : ConfigTypes}
    (hprepared : prepareWireguardConfig c stdOut file = (.ok connData, file'))
    (h : PlainValues context c connData) :
    ∃ json config lastConfig,
      createConfig context c stdOut file = (.ok (context.qt.indented json), file') ∧
      extractWireGuardConfig importContext (json.value "config").toString configType =
        some (config, if c.isAwg then .Awg else configType) ∧
      Recovered importContext context c connData config lastConfig := by
  obtain ⟨config, lastConfig, hextract, hrecovered⟩ := recovered_clientText h importContext configType
  obtain ⟨hcreated, htext⟩ := createConfig_of_prepared hprepared
  rw [← htext] at hextract
  exact ⟨jConfig context c connData, config, lastConfig, hcreated, hextract, hrecovered⟩

def awgCreation : Creation where
  isAwg := true
  hostName := "192.0.2.1"
  containerConfig := [("awg", .object (("port", .string "33000") ::
    [("Jc", "3"), ("Jmin", "10"), ("Jmax", "50"), ("S1", "29"), ("S2", "88"), ("H1", "5"),
      ("H2", "6"), ("H3", "7"), ("H4", "8")].map fun p => (p.1, .string p.2)))]
  clientPrivKey := "c2VjcmV0cw=="
  clientPubKey := "cHVibGlj"
  scriptError := none
  serverPubKeyFile := .ok "c2VydmVycw==\n"
  pskKeyFile := .ok "c2hhcmVk\n"
  upload := ⟨true, none⟩
  syncError := none

def awgData : ConnectionData where
  clientPrivKey := "c2VjcmV0cw=="
  clientPubKey := "cHVibGlj"
  clientIP := "10.8.1.2"
  serverPubKey := "c2VydmVycw=="
  pskKey := "c2hhcmVk"
  host := "192.0.2.1"
  port := "33000"

def plainScripts : ScriptContext where
  qt := .plain QtRuntime.noUrl []
  others := ⟨[], [], [], by simp⟩
  getIPAddress := id
  defaultMtu := "1280"

theorem prepareWireguardConfig_awgCreation :
    prepareWireguardConfig awgCreation "" "" =
      (.ok awgData, configPart "cHVibGlj" "c2hhcmVk" "10.8.1.2") := by
  rfl

theorem plainValues_awgCreation : PlainValues plainScripts awgCreation awgData where
  plain := by decide
  port := all_eq_true.mp (by decide)

theorem recovered_of_createConfig_awgCreation :
    ∃ json config lastConfig,
      createConfig plainScripts awgCreation "" "" = (.ok (plainScripts.qt.indented json),
        configPart "cHVibGlj" "c2hhcmVk" "10.8.1.2") ∧
      extractWireGuardConfig plainContext (json.value "config").toString .WireGuard =
        some (config, .Awg) ∧
      Recovered plainContext plainScripts awgCreation awgData config lastConfig :=
  recovered_of_createConfig prepareWireguardConfig_awgCreation plainValues_awgCreation

/-- The address of the client is imported with its mask. -/
theorem imported_address_differs :
    ∃ json config lastConfig,
      createConfig plainScripts awgCreation "" "" = (.ok (plainScripts.qt.indented json),
        configPart "cHVibGlj" "c2hhcmVk" "10.8.1.2") ∧
      extractWireGuardConfig plainContext (json.value "config").toString .WireGuard =
        some (config, .Awg) ∧
      (protocolConfig config "awg").value "last_config" =
        .string (plainContext.qt.indented lastConfig) ∧
      json.value "client_ip" = .string "10.8.1.2" ∧
      lastConfig.value "client_ip" = .string "10.8.1.2/32" := by
  obtain ⟨config, lastConfig, hextract, hrecovered⟩ :=
    recovered_clientText plainValues_awgCreation plainContext .WireGuard
  obtain ⟨hcreated, htext⟩ := createConfig_of_prepared prepareWireguardConfig_awgCreation
  rw [← htext] at hextract
  exact ⟨_, config, lastConfig, hcreated, hextract, hrecovered.last_config, by simp [jConfig, awgData],
    hrecovered.client_ip⟩

end Import

end WireguardConfigurator

end AmneziaVpn
