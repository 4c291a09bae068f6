import AmneziaVpn.ActivateMessage
import AmneziaVpn.ImportedTexts
import AmneziaVpn.LinuxKillSwitch

/-!
# The server of an OpenVPN text

The importer cuts the host out of a `remote` line. The configuration of a connection takes it over,
and the kill switch allows it.
-/

namespace AmneziaVpn.ImportedText

open BacktrackingRegex VpnConnection List

variable (dns : String × String) (serverConfig openvpnConfigData : QJsonObject)
  (isKillSwitchEnabled : Bool) (m_settings : SplitTunneling)

/-- The configuration of a connection by OpenVPN, as the protocol hands it to the service. -/
def openVpnConfiguration : QJsonObject :=
  QJsonObject.insert [] "openvpn_config_data" (.object openvpnConfigData)
    |>.insert "protocol" (.string "openvpn")
    |>.insert "dns1" (.string dns.1)
    |>.insert "dns2" (.string dns.2)
    |>.insert "hostName" (.string (serverConfig.value "hostName").toString)
    |>.insert "description" (.string (serverConfig.value "description").toString)
    |>.insert "config_version" (.double (serverConfig.value "config_version").toInt)
    |>.insert "killSwitchOption" (.string (if isKillSwitchEnabled then "true" else "false"))
    |> appendSplitTunnelingConfig m_settings

theorem value_hostName_openVpnConfiguration :
    (openVpnConfiguration dns serverConfig openvpnConfigData isKillSwitchEnabled m_settings).value
      "hostName" = .string (serverConfig.value "hostName").toString := by
  unfold openVpnConfiguration
  rw [value_appendSplitTunnelingConfig (by decide) (by decide)]
  unfold appendSitesConfig
  simp [value_ite]

theorem head?_allowAddrs (config : QJsonObject)
    (h : (LinuxFirewall.killSwitchParams config).allowNets = true) :
    (LinuxFirewall.killSwitchParams config).allowAddrs.head? =
      some (config.value "hostName").toString := by
  unfold LinuxFirewall.killSwitchParams at h ⊢
  dsimp only at h ⊢
  split_ifs at h ⊢ <;> rfl

variable {context : ImportContext} {data : String} {before after : List String}

theorem value_hostName_extractOpenVpnConfig (context : ImportContext) (data : String) :
    (extractOpenVpnConfig context data).value "hostName" =
      .string ((captured openVpnHostName 1 data).getD "") := by
  unfold extractOpenVpnConfig
  dsimp only
  split <;> simp [serverConfig]

theorem not_mem_of_mem_lines {line : String} (h : line ∈ lines data) : '\n' ∉ line.toList := by
  unfold lines at h
  rw [QString.split_eq (c := '\n') rfl, mem_map] at h
  obtain ⟨l, hl, rfl⟩ := h
  rw [String.toList_ofList]
  exact Pieces.not_mem_of_mem_splitOn hl

theorem captured_remote {host rest : String}
    (hdata : lines data = before ++ ("remote " ++ host ++ " " ++ rest) :: after)
    (hbefore : ∀ line ∈ before, firstCaptures openVpnHostName line.toList = none)
    (hrest : ' ' ∉ rest.toList) : captured openVpnHostName 1 data = some host := by
  have hline : ("remote " ++ host ++ " " ++ rest).toList =
      "remote ".toList ++ (host.toList ++ ' ' :: rest.toList) := by simp
  have hmem : "remote " ++ host ++ " " ++ rest ∈ lines data := by
    rw [hdata]
    exact mem_append_right _ mem_cons_self
  have hnewline := not_mem_of_mem_lines hmem
  rw [hline] at hnewline
  simp only [mem_append, mem_cons, not_or] at hnewline
  obtain ⟨f, hf, hone⟩ := firstCaptures_remote hnewline.2.1 hnewline.2.2.2 hrest
  rw [← hline] at hf
  rw [captured_eq openVpnHostName_avoids, hdata, found_append_of_none hbefore,
    found_cons_of_some hf, hone, Option.map_some, String.ofList_toList]

theorem exists_captured_remote {host rest : String}
    (hdata : lines data = before ++ ("remote " ++ host ++ " " ++ rest) :: after)
    (hbefore : ∀ line ∈ before, firstCaptures openVpnHostName line.toList = none) :
    ∃ hostName, captured openVpnHostName 1 data = some hostName ∧
      (hostName = host ↔ ' ' ∉ rest.toList) := by
  by_cases hblank : ' ' ∈ rest.toList
  · obtain ⟨v, u, hsplit, hv⟩ := eq_append_cons_of_mem (mem_reverse.mpr hblank)
    have hrest : rest = String.ofList u.reverse ++ " " ++ String.ofList v.reverse := by
      apply String.toList_injective
      rw [← reverse_reverse rest.toList, hsplit]
      simp
    have hlonger : lines data = before ++ ("remote " ++ (host ++ " " ++ String.ofList u.reverse) ++
        " " ++ String.ofList v.reverse) :: after := by
      rw [hdata, hrest]
      simp only [String.append_assoc]
    refine ⟨_, captured_remote hlonger hbefore (by simpa using hv), ?_⟩
    simp only [hblank, not_true_eq_false, iff_false]
    intro hhost
    have hlength := congrArg (fun s => s.toList.length) hhost
    simp at hlength
  · exact ⟨host, captured_remote hdata hbefore hblank, by simp [hblank]⟩

/-- The stored host is that of the first `remote` line if nothing follows the port. -/
theorem remote_host_iff {host rest : String}
    (hdata : lines data = before ++ ("remote " ++ host ++ " " ++ rest) :: after)
    (hbefore : ∀ line ∈ before, firstCaptures openVpnHostName line.toList = none) :
    ((extractOpenVpnConfig context data).value "hostName" = .string host ↔ ' ' ∉ rest.toList) ∧
      ∀ dns openvpnConfigData isKillSwitchEnabled m_settings,
        let params := LinuxFirewall.killSwitchParams (openVpnConfiguration dns
          (extractOpenVpnConfig context data) openvpnConfigData isKillSwitchEnabled m_settings)
        params.allowNets = true → (params.allowAddrs.head? = some host ↔ ' ' ∉ rest.toList) := by
  obtain ⟨hostName, hcaptured, hiff⟩ := exists_captured_remote hdata hbefore
  have hstored : (extractOpenVpnConfig context data).value "hostName" = .string hostName := by
    rw [value_hostName_extractOpenVpnConfig, hcaptured, Option.getD_some]
  constructor
  · rw [hstored, QJsonValue.string.injEq, hiff]
  · intro dns openvpnConfigData isKillSwitchEnabled m_settings params hallow
    rw [head?_allowAddrs _ hallow, value_hostName_openVpnConfiguration, hstored,
      Option.some.injEq]
    exact hiff

def firstLines : List String := ["client", "dev tun", "proto udp"]

theorem firstCaptures_firstLines :
    ∀ line ∈ firstLines, firstCaptures openVpnHostName line.toList = none := by
  have hinf : ∀ line ∈ firstLines, ¬ "remote ".toList <:+: line.toList := by decide
  exact fun line hline => firstCaptures_chars_of_not_infix (hinf line hline)

theorem remote_host_without_protocol :
    (extractOpenVpnConfig plainContext
      (QString.join (firstLines ++ ["remote vpn.example.com 1194"]) "\n")).value "hostName" =
        .string "vpn.example.com" := by
  have hlines : lines (QString.join (firstLines ++ ["remote vpn.example.com 1194"]) "\n") =
      firstLines ++ ("remote " ++ "vpn.example.com" ++ " " ++ "1194") :: [] :=
    QString.split_join rfl (by simp) (by decide)
  exact (remote_host_iff hlines firstCaptures_firstLines).1.mpr (by decide)

/-- A protocol behind the port makes the port a part of the host. -/
theorem remote_host_with_protocol :
    (extractOpenVpnConfig plainContext
      (QString.join (firstLines ++ ["remote vpn.example.com 1194 udp"]) "\n")).value "hostName" =
        .string "vpn.example.com 1194" := by
  have hlines : lines (QString.join (firstLines ++ ["remote vpn.example.com 1194 udp"]) "\n") =
      firstLines ++ ("remote " ++ "vpn.example.com 1194" ++ " " ++ "udp") :: [] :=
    QString.split_join rfl (by simp) (by decide)
  rw [value_hostName_extractOpenVpnConfig,
    captured_remote hlines firstCaptures_firstLines (by decide), Option.getD_some]

end AmneziaVpn.ImportedText
