import CcToolsQt.TcpProxy
import CcToolsQt.UdpProxy

/-! # Network settings of the sockets

The protocol plugin reports a property map, and the sockets take their remote host, remote port and
local port from it.  `UdpGenericSocket`, `UdpProxySocket` and `TcpProxySocket` each have their own
`applyInterPluginConfigImpl` with the same loops over two keys, the general one (`network.*`) before
the one of the protocol (`udp.*`, `tcp.*`).

* `applyKeys_get`, `applyKeys_get_of_ne`, `applyKeys_snd`: what one loop does to the field it sets,
  to the other fields and to `updated`.
* `ownFields_iff`: the proxies always put each setting into its own field; `UdpGenericSocket` sets
  the remote port in the loop of the local port. -/

namespace CcToolsQt

namespace QVariant

/-- `value<int>()`; `none` when `canConvert` says no. -/
def toInt : QVariant → Option ℤ
  | number n => some (n.bmod (2 ^ 32))
  | bool b => some b.toNat
  | string s =>
      -- read as `qlonglong` and truncated; zero if that fails
      some (((QString.toLongLong 10 s).getD 0).bmod (2 ^ 32))
  | _ => none

/-- `static_cast<PortType>(value<int>())`. -/
def toPort (v : QVariant) : Option ℕ := v.toInt.map fun n => (n % 2 ^ 16).toNat

end QVariant

/-! ### The loops -/

def networkHostProp : QString := "network.host".toList
def networkPortProp : QString := "network.port".toList
def networkLocalPortProp : QString := "network.local_port".toList
def networkBroadcastMaskProp : QString := "network.broadcast_mask".toList
def udpHostProp : QString := "udp.host".toList
def udpPortProp : QString := "udp.port".toList
def udpLocalPortProp : QString := "udp.local_port".toList
def udpBroadcastMaskProp : QString := "udp.broadcast_mask".toList
def tcpHostProp : QString := "tcp.host".toList
def tcpPortProp : QString := "tcp.port".toList
def tcpLocalPortProp : QString := "tcp.local_port".toList

section
variable {σ τ β : Type} (convert : QVariant → Option τ) (set : σ → τ → σ) (keys : List QString)
variable (props : QVariantMap)

/-- One loop: the value of each key that is present and converts is set; `updated` is the second
component. -/
def applyKeys (s : σ × Bool) : σ × Bool :=
  keys.foldl
    (fun s key =>
      match convert (props.value key) with
      | some val => (set s.1 val, true)
      | none => s)
    s

/-- The value of the last of the keys that is present and converts. -/
def lastValue : Option τ := keys.reverse.findSome? fun key => convert (props.value key)

variable {convert keys props}

theorem lastValue_cons (key : QString) :
    lastValue convert (key :: keys) props =
      (lastValue convert keys props).or (convert (props.value key)) := by
  simp [lastValue, List.findSome?_append]

/-- The field that a loop sets. -/
theorem applyKeys_get (get : σ → τ) (hset : ∀ s val, get (set s val) = val) (s : σ × Bool) :
    get (applyKeys convert set keys props s).1 = (lastValue convert keys props).getD (get s.1) := by
  induction keys generalizing s with
  | nil => rfl
  | cons key keys ih =>
      rw [applyKeys, List.foldl_cons, ← applyKeys, ih, lastValue_cons]
      cases convert (props.value key) with
      | none => simp
      | some val => cases lastValue convert keys props <;> simp [hset]

/-- The other fields. -/
theorem applyKeys_get_of_ne (get : σ → β) (hset : ∀ s val, get (set s val) = get s)
    (s : σ × Bool) : get (applyKeys convert set keys props s).1 = get s.1 := by
  induction keys generalizing s with
  | nil => rfl
  | cons key keys ih =>
      rw [applyKeys, List.foldl_cons, ← applyKeys, ih]
      cases convert (props.value key) with
      | none => rfl
      | some val => exact hset s.1 val

theorem applyKeys_snd (s : σ × Bool) :
    (applyKeys convert set keys props s).2 =
      (s.2 || keys.any fun key => (convert (props.value key)).isSome) := by
  induction keys generalizing s with
  | nil => simp [applyKeys]
  | cons key keys ih =>
      rw [applyKeys, List.foldl_cons, ← applyKeys, ih, List.any_cons, ← Bool.or_assoc]
      cases convert (props.value key) <;> simp

end

/-! ### The sockets -/

namespace UdpProxy

def setHost (s : UdpProxy) (value : QString) : UdpProxy := { s with m_host := value }

def setPort (s : UdpProxy) (value : ℕ) : UdpProxy := { s with m_port := value }

def setLocalPort (s : UdpProxy) (value : ℕ) : UdpProxy := { s with m_localPort := value }

/-- `applyInterPluginConfigImpl`; the second component says whether `sigConfigChanged` is
emitted. -/
def applyInterPluginConfigImpl (s : UdpProxy) (props : QVariantMap) : UdpProxy × Bool :=
  let s := applyKeys QVariant.toQString setHost [networkHostProp, udpHostProp] props (s, false)
  let s := applyKeys QVariant.toPort setPort [networkPortProp, udpPortProp] props s
  applyKeys QVariant.toPort setLocalPort [networkLocalPortProp, udpLocalPortProp] props s

end UdpProxy

namespace TcpProxy

def setRemoteHost (s : TcpProxy) (value : QString) : TcpProxy := { s with m_remoteHost := value }

def setRemotePort (s : TcpProxy) (value : ℕ) : TcpProxy := { s with m_remotePort := value }

/-- `m_port` is the local port of this socket. -/
def setPort (s : TcpProxy) (value : ℕ) : TcpProxy := { s with m_port := value }

def applyInterPluginConfigImpl (s : TcpProxy) (props : QVariantMap) : TcpProxy × Bool :=
  let s :=
    applyKeys QVariant.toQString setRemoteHost [networkHostProp, tcpHostProp] props (s, false)
  let s := applyKeys QVariant.toPort setRemotePort [networkPortProp, tcpPortProp] props s
  applyKeys QVariant.toPort setPort [networkLocalPortProp, tcpLocalPortProp] props s

end TcpProxy

/-- The configuration of `UdpGenericSocket`. -/
structure UdpGenericSocket where
  m_host : QString := []
  m_port : ℕ := 20000
  m_localPort : ℕ := 0
  m_broadcastMask : QString := "255.255.255.255".toList

namespace UdpGenericSocket

def setHost (s : UdpGenericSocket) (value : QString) : UdpGenericSocket :=
  { s with m_host := value }

def setPort (s : UdpGenericSocket) (value : ℕ) : UdpGenericSocket := { s with m_port := value }

def setBroadcastMask (s : UdpGenericSocket) (value : QString) : UdpGenericSocket :=
  { s with m_broadcastMask := value }

/-- The loop of the local port calls `setPort`. -/
def applyInterPluginConfigImpl (s : UdpGenericSocket) (props : QVariantMap) :
    UdpGenericSocket × Bool :=
  let s := applyKeys QVariant.toQString setHost [networkHostProp, udpHostProp] props (s, false)
  let s := applyKeys QVariant.toPort setPort [networkPortProp, udpPortProp] props s
  let s := applyKeys QVariant.toPort setPort [networkLocalPortProp, udpLocalPortProp] props s
  applyKeys QVariant.toQString setBroadcastMask [networkBroadcastMaskProp, udpBroadcastMaskProp]
    props s

end UdpGenericSocket

/-! ### The settings -/

/-- The settings of the sockets. -/
structure NetworkSettings where
  host : QString
  remotePort : ℕ
  localPort : ℕ

def UdpProxy.settings (s : UdpProxy) : NetworkSettings := ⟨s.m_host, s.m_port, s.m_localPort⟩

def TcpProxy.settings (s : TcpProxy) : NetworkSettings := ⟨s.m_remoteHost, s.m_remotePort, s.m_port⟩

def UdpGenericSocket.settings (s : UdpGenericSocket) : NetworkSettings :=
  ⟨s.m_host, s.m_port, s.m_localPort⟩

/-- The keys of the settings, each the general one and the one of the protocol. -/
structure NetworkKeys where
  host : QString × QString
  remotePort : QString × QString
  localPort : QString × QString
  /-- another text a socket recognises -/
  mask : Option (QString × QString) := none

def udpProxyKeys : NetworkKeys where
  host := (networkHostProp, udpHostProp)
  remotePort := (networkPortProp, udpPortProp)
  localPort := (networkLocalPortProp, udpLocalPortProp)

def tcpProxyKeys : NetworkKeys where
  host := (networkHostProp, tcpHostProp)
  remotePort := (networkPortProp, tcpPortProp)
  localPort := (networkLocalPortProp, tcpLocalPortProp)

def udpGenericKeys : NetworkKeys :=
  { udpProxyKeys with mask := some (networkBroadcastMaskProp, udpBroadcastMaskProp) }

/-- The value of a setting: the key of the protocol goes before the general one. -/
def configured {τ : Type} (convert : QVariant → Option τ) (keys : QString × QString)
    (props : QVariantMap) : Option τ :=
  (convert (props.value keys.2)).or (convert (props.value keys.1))

/-- Each setting has the value of its own keys, or else its old one, and the change is announced
exactly if some key was applied. -/
structure OwnFields (keys : NetworkKeys) (props : QVariantMap) (before after : NetworkSettings)
    (changed : Bool) : Prop where
  host : after.host = (configured QVariant.toQString keys.host props).getD before.host
  remotePort :
    after.remotePort = (configured QVariant.toPort keys.remotePort props).getD before.remotePort
  localPort :
    after.localPort = (configured QVariant.toPort keys.localPort props).getD before.localPort
  changed : changed = true ↔
    (configured QVariant.toQString keys.host props).isSome = true ∨
      (configured QVariant.toPort keys.remotePort props).isSome = true ∨
      (configured QVariant.toPort keys.localPort props).isSome = true ∨
      ∃ mask ∈ keys.mask, (configured QVariant.toQString mask props).isSome = true

section
variable {τ : Type} {convert : QVariant → Option τ} {props : QVariantMap}

theorem lastValue_pair (general specific : QString) :
    lastValue convert [general, specific] props = configured convert (general, specific) props := by
  rw [lastValue_cons, lastValue_cons]
  simp [lastValue, configured]

theorem any_pair (general specific : QString) :
    ([general, specific].any fun key => (convert (props.value key)).isSome) =
      (configured convert (general, specific) props).isSome := by
  simp [configured, Bool.or_comm]

end

theorem UdpProxy.ownFields (s : UdpProxy) (props : QVariantMap) :
    OwnFields udpProxyKeys props s.settings (s.applyInterPluginConfigImpl props).1.settings
      (s.applyInterPluginConfigImpl props).2 where
  host := by
    show m_host _ = _
    rw [applyInterPluginConfigImpl, applyKeys_get_of_ne setLocalPort m_host (fun _ _ => rfl),
      applyKeys_get_of_ne setPort m_host (fun _ _ => rfl),
      applyKeys_get setHost m_host (fun _ _ => rfl), lastValue_pair]
    rfl
  remotePort := by
    show m_port _ = _
    rw [applyInterPluginConfigImpl, applyKeys_get_of_ne setLocalPort m_port (fun _ _ => rfl),
      applyKeys_get setPort m_port (fun _ _ => rfl),
      applyKeys_get_of_ne setHost m_port (fun _ _ => rfl), lastValue_pair]
    rfl
  localPort := by
    show m_localPort _ = _
    rw [applyInterPluginConfigImpl, applyKeys_get setLocalPort m_localPort (fun _ _ => rfl),
      applyKeys_get_of_ne setPort m_localPort (fun _ _ => rfl),
      applyKeys_get_of_ne setHost m_localPort (fun _ _ => rfl), lastValue_pair]
    rfl
  changed := by
    rw [applyInterPluginConfigImpl, applyKeys_snd, applyKeys_snd, applyKeys_snd, any_pair, any_pair,
      any_pair]
    simp [udpProxyKeys, or_assoc]

theorem TcpProxy.ownFields (s : TcpProxy) (props : QVariantMap) :
    OwnFields tcpProxyKeys props s.settings (s.applyInterPluginConfigImpl props).1.settings
      (s.applyInterPluginConfigImpl props).2 where
  host := by
    show m_remoteHost _ = _
    rw [applyInterPluginConfigImpl, applyKeys_get_of_ne setPort m_remoteHost (fun _ _ => rfl),
      applyKeys_get_of_ne setRemotePort m_remoteHost (fun _ _ => rfl),
      applyKeys_get setRemoteHost m_remoteHost (fun _ _ => rfl), lastValue_pair]
    rfl
  remotePort := by
    show m_remotePort _ = _
    rw [applyInterPluginConfigImpl, applyKeys_get_of_ne setPort m_remotePort (fun _ _ => rfl),
      applyKeys_get setRemotePort m_remotePort (fun _ _ => rfl),
      applyKeys_get_of_ne setRemoteHost m_remotePort (fun _ _ => rfl), lastValue_pair]
    rfl
  localPort := by
    show m_port _ = _
    rw [applyInterPluginConfigImpl, applyKeys_get setPort m_port (fun _ _ => rfl),
      applyKeys_get_of_ne setRemotePort m_port (fun _ _ => rfl),
      applyKeys_get_of_ne setRemoteHost m_port (fun _ _ => rfl), lastValue_pair]
    rfl
  changed := by
    rw [applyInterPluginConfigImpl, applyKeys_snd, applyKeys_snd, applyKeys_snd, any_pair, any_pair,
      any_pair]
    simp [tcpProxyKeys, or_assoc]

namespace UdpGenericSocket
variable (s : UdpGenericSocket) (props : QVariantMap)

/-- The remote port is overwritten by the value for the local port, which stays as it is. -/
theorem applyInterPluginConfigImpl_settings :
    (s.applyInterPluginConfigImpl props).1.settings =
      ⟨(configured QVariant.toQString udpGenericKeys.host props).getD s.m_host,
        (configured QVariant.toPort udpGenericKeys.localPort props).getD
          ((configured QVariant.toPort udpGenericKeys.remotePort props).getD s.m_port),
        s.m_localPort⟩ := by
  have hhost : (s.applyInterPluginConfigImpl props).1.m_host =
      (configured QVariant.toQString udpGenericKeys.host props).getD s.m_host := by
    rw [applyInterPluginConfigImpl, applyKeys_get_of_ne setBroadcastMask m_host (fun _ _ => rfl),
      applyKeys_get_of_ne setPort m_host (fun _ _ => rfl),
      applyKeys_get_of_ne setPort m_host (fun _ _ => rfl),
      applyKeys_get setHost m_host (fun _ _ => rfl), lastValue_pair]
    rfl
  have hport : (s.applyInterPluginConfigImpl props).1.m_port =
      (configured QVariant.toPort udpGenericKeys.localPort props).getD
        ((configured QVariant.toPort udpGenericKeys.remotePort props).getD s.m_port) := by
    rw [applyInterPluginConfigImpl, applyKeys_get_of_ne setBroadcastMask m_port (fun _ _ => rfl),
      applyKeys_get setPort m_port (fun _ _ => rfl), applyKeys_get setPort m_port (fun _ _ => rfl),
      applyKeys_get_of_ne setHost m_port (fun _ _ => rfl), lastValue_pair, lastValue_pair]
    rfl
  have hlocal : (s.applyInterPluginConfigImpl props).1.m_localPort = s.m_localPort := by
    rw [applyInterPluginConfigImpl,
      applyKeys_get_of_ne setBroadcastMask m_localPort (fun _ _ => rfl),
      applyKeys_get_of_ne setPort m_localPort (fun _ _ => rfl),
      applyKeys_get_of_ne setPort m_localPort (fun _ _ => rfl),
      applyKeys_get_of_ne setHost m_localPort (fun _ _ => rfl)]
  rw [settings, hhost, hport, hlocal]

theorem applyInterPluginConfigImpl_snd :
    (s.applyInterPluginConfigImpl props).2 = true ↔
      (configured QVariant.toQString udpGenericKeys.host props).isSome = true ∨
        (configured QVariant.toPort udpGenericKeys.remotePort props).isSome = true ∨
        (configured QVariant.toPort udpGenericKeys.localPort props).isSome = true ∨
        ∃ mask ∈ udpGenericKeys.mask, (configured QVariant.toQString mask props).isSome = true := by
  rw [applyInterPluginConfigImpl, applyKeys_snd, applyKeys_snd, applyKeys_snd, applyKeys_snd,
    any_pair, any_pair, any_pair, any_pair]
  simp [udpGenericKeys, udpProxyKeys, or_assoc]

/-- A local port in the map is the one the socket has already, and the remote port it gets as
well. -/
def LocalPortHarmless : Prop :=
  ∀ port, configured QVariant.toPort udpGenericKeys.localPort props = some port →
    port = s.m_localPort ∧
      port = (configured QVariant.toPort udpGenericKeys.remotePort props).getD s.m_port

theorem ownFields_iff_harmless :
    OwnFields udpGenericKeys props s.settings (s.applyInterPluginConfigImpl props).1.settings
      (s.applyInterPluginConfigImpl props).2 ↔ s.LocalPortHarmless props := by
  rw [applyInterPluginConfigImpl_settings]
  constructor
  · intro h port hport
    have hremote := h.remotePort
    have hlocal := h.localPort
    rw [hport] at hlocal
    rw [hport] at hremote
    exact ⟨hlocal.symm, hremote⟩
  · intro h
    refine ⟨rfl, ?_, ?_, applyInterPluginConfigImpl_snd s props⟩
    all_goals cases hport : configured QVariant.toPort udpGenericKeys.localPort props with
      | none => rfl
      | some port => first | exact (h port hport).2 | exact (h port hport).1.symm

end UdpGenericSocket

/-- **The settings of the sockets.**  The two proxies put each setting into its own field;
`UdpGenericSocket` does so exactly if the map has no local port, or none that changes anything. -/
theorem ownFields_iff (props : QVariantMap) :
    (∀ s : UdpProxy, OwnFields udpProxyKeys props s.settings
        (s.applyInterPluginConfigImpl props).1.settings (s.applyInterPluginConfigImpl props).2) ∧
      (∀ s : TcpProxy, OwnFields tcpProxyKeys props s.settings
        (s.applyInterPluginConfigImpl props).1.settings (s.applyInterPluginConfigImpl props).2) ∧
      ∀ s : UdpGenericSocket, OwnFields udpGenericKeys props s.settings
          (s.applyInterPluginConfigImpl props).1.settings (s.applyInterPluginConfigImpl props).2 ↔
        s.LocalPortHarmless props :=
  ⟨fun s => s.ownFields props, fun s => s.ownFields props, fun s => s.ownFields_iff_harmless props⟩

/-- A local port goes into the remote port. -/
theorem local_port_misplaced :
    ¬ OwnFields udpGenericKeys [(networkLocalPortProp, .number 5)] ({} : UdpGenericSocket).settings
      (({} : UdpGenericSocket).applyInterPluginConfigImpl
        [(networkLocalPortProp, .number 5)]).1.settings
      (({} : UdpGenericSocket).applyInterPluginConfigImpl [(networkLocalPortProp, .number 5)]).2 := by
  intro h
  have hport := h.localPort
  revert hport
  decide

end CcToolsQt
