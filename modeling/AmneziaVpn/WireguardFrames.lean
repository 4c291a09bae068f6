import AmneziaVpn.DaemonFrames
import AmneziaVpn.WireguardInterface

/-!
# What the functions for peers and routes keep

A relation that the route monitor and the commands to the tunnel process keep is kept by the
functions for peers and routes, on any platform that uses them.
-/

namespace AmneziaVpn.WireguardInterface

open FallibleOps FallibleOps.Op

variable {σ : Type} {R : σ → σ → Prop} [IsPreorder σ R] {M : RouteMonitor σ}
  {uapi : (Device → Device) → Op σ} (qt : QtLibrary)

section Servers

variable (config : InterfaceConfig)

theorem keeps_excludeServer (h : ∀ range, Keeps R (M.addExclusionRoute range)) :
    Keeps R (excludeServer qt M config) := by
  intro p
  unfold excludeServer
  split_ifs
  · exact Keeps.each h (serverAddresses qt config) p
  · exact refl p

theorem keeps_includeServer (h : ∀ range, Keeps R (M.deleteExclusionRoute range)) :
    Keeps R (includeServer qt M config) := by
  intro p
  unfold includeServer
  split_ifs
  · exact Keeps.each h (serverAddresses qt config) p
  · exact refl p

theorem keeps_deletePeer (h : ∀ range, Keeps R (M.deleteExclusionRoute range))
    (huapi : ∀ publicKey, Keeps R (uapi (Device.deletePeer publicKey))) :
    Keeps R (deletePeer qt M uapi config) :=
  (keeps_includeServer qt config h).andThen (huapi _)

theorem keepsOnSuccess_updatePeer (h : ∀ range, Keeps R (M.addExclusionRoute range))
    (huapi : ∀ peer, KeepsOnSuccess R (uapi (Device.updatePeer peer))) :
    KeepsOnSuccess R (updatePeer qt M uapi config) := by
  unfold updatePeer
  cases hendpoint : endpoint config with
  | none => exact fun p _ => refl p
  | some address => exact (keeps_excludeServer qt config h).onSuccess.andThen (huapi _)

theorem keepsOnSuccess_deletePeer (h : ∀ range, Keeps R (M.deleteExclusionRoute range))
    (huapi : ∀ publicKey, KeepsOnSuccess R (uapi (Device.deletePeer publicKey))) :
    KeepsOnSuccess R (deletePeer qt M uapi config) :=
  (keeps_includeServer qt config h).onSuccess.andThen (huapi _)

end Servers

section Ranges

variable (range : IPAddress)

theorem keeps_updateRoutePrefix (h : ∀ range, Keeps R (M.insertRoute range)) :
    Keeps R (updateRoutePrefix qt M range) := by
  intro p
  unfold updateRoutePrefix
  split_ifs
  · exact refl p
  · exact h range p
  · exact refl p
  · exact Keeps.allOf h (halves qt range.type) p

theorem keeps_deleteRoutePrefix (hinsert : ∀ range, Keeps R (M.insertRoute range))
    (hdelete : ∀ range, Keeps R (M.deleteRoute range)) :
    Keeps R (deleteRoutePrefix qt M range) := by
  intro p
  unfold deleteRoutePrefix
  split_ifs
  · exact refl p
  · exact hinsert range p
  · exact refl p
  · exact Keeps.allOf hdelete (halves qt range.type) p

theorem keeps_addExclusionRoute (h : Keeps R (M.addExclusionRoute range)) :
    Keeps R (addExclusionRoute M range) := by
  intro p
  unfold addExclusionRoute
  split_ifs
  · exact refl p
  · exact h p

theorem keeps_deleteExclusionRoute (h : Keeps R (M.deleteExclusionRoute range)) :
    Keeps R (deleteExclusionRoute M range) := by
  intro p
  unfold deleteExclusionRoute
  split_ifs
  · exact refl p
  · exact h p

end Ranges

structure KeptByMonitor (R : σ → σ → Prop) (M : RouteMonitor σ) : Prop where
  insertRoute : ∀ range, Keeps R (M.insertRoute range)
  deleteRoute : ∀ range, Keeps R (M.deleteRoute range)
  addExclusionRoute : ∀ range, Keeps R (M.addExclusionRoute range)
  deleteExclusionRoute : ∀ range, Keeps R (M.deleteExclusionRoute range)

theorem KeptByMonitor.utils (h : KeptByMonitor R M)
    (hupdate : ∀ peer, KeepsOnSuccess R (uapi (Device.updatePeer peer)))
    (hdelete : ∀ publicKey, KeepsOnSuccess R (uapi (Device.deletePeer publicKey))) :
    Daemon.UtilsKeep (· = true) (Daemon.OnPlatform R) (utils qt M uapi) where
  success := rfl
  updatePeer config d := keepsOnSuccess_updatePeer qt config h.addExclusionRoute hupdate d.platform
  deletePeer config d :=
    keepsOnSuccess_deletePeer qt config h.deleteExclusionRoute hdelete d.platform
  updateRoutePrefix range d := keeps_updateRoutePrefix qt range h.insertRoute d.platform
  deleteRoutePrefix range d :=
    keeps_deleteRoutePrefix qt range h.insertRoute h.deleteRoute d.platform
  addExclusionRoute range d := keeps_addExclusionRoute range (h.addExclusionRoute range) d.platform
  deleteExclusionRoute range d :=
    keeps_deleteExclusionRoute range (h.deleteExclusionRoute range) d.platform

end AmneziaVpn.WireguardInterface
