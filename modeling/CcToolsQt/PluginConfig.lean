import CcToolsQt.Lib.Sections
import CcToolsQt.NetworkConfig
import CcToolsQt.SaveFile

/-! # Configuration files of the plugins

`ToolsPluginMgrImpl` saves the list of the selected plugins with their settings to a file and loads
it again.  Every plugin of a socket keeps the settings under a key of its own.

* `SocketPlugin.owns`: a plugin writes and reads the entry of its key only.
* `Library.load_save_iff`: which settings come back, for each plugin.
* `saved_restored_iff`: the list and the settings after a file is saved and loaded. -/

namespace CcToolsQt

/-- `value<QVariantList>()`. -/
def QVariant.toList : QVariant → Option (List QVariant)
  | list l => some l
  | _ => none

/-- `value<PortType>()`. -/
def QVariant.toPortType (v : QVariant) : Option ℕ := v.toUnsigned 16

/-- `value<int>()`, also for the enumerations of Qt, which are the `int` behind them. -/
def QVariant.toInt32 (v : QVariant) : Option Int32 := v.toInt.map Int32.ofInt

/-! ### The settings of the sockets -/

structure TcpClientSocket where
  m_host : QString := []
  m_port : ℕ := 20000

structure TcpServerSocket where
  m_port : ℕ := 20000

/-- Nothing checks the enumerations of a configuration. -/
structure SslClientSocket where
  m_host : QString := []
  m_port : ℕ := 20000
  m_caDir : QString := []
  m_caDirFormat : Int32 := 0
  m_caFile : QString := []
  m_caFileFormat : Int32 := 0
  m_verifyMode : Int32 := 0
  m_verifyName : QString := []
  m_protocol : Int32
  m_certFile : QString := []
  m_certFormat : Int32 := 0
  m_privKeyFile : QString := []
  m_privKeyAlg : Int32 := 1
  m_privKeyFormat : Int32 := 0
  m_privKeyPass : QString := []

/-- Every assignment stays among the enumerators of `QSerialPort`. -/
structure SerialSocket where
  m_name : QString
  m_baud : Int32 := 115200
  m_dataBits : Int32 := 8
  m_parity : Int32 := 0
  m_stopBits : Int32 := 1
  m_flowControl : Int32 := 0
  dataBits_range : 5 ≤ m_dataBits ∧ m_dataBits ≤ 8 := by decide
  parity_range : 0 ≤ m_parity ∧ m_parity ≤ 5 ∧ m_parity ≠ 1 := by decide
  stopBits_range : 1 ≤ m_stopBits ∧ m_stopBits ≤ 3 := by decide
  flowControl_range : 0 ≤ m_flowControl ∧ m_flowControl ≤ 2 := by decide

def UdpGenericSocket.setLocalPort (s : UdpGenericSocket) (value : ℕ) : UdpGenericSocket :=
  { s with m_localPort := value }

namespace SerialSocket

def setBaud (s : SerialSocket) (baud : Int32) : SerialSocket :=
  if 0 < baud then { s with m_baud := baud } else s

def setDataBits (s : SerialSocket) (dataBits : Int32) : SerialSocket :=
  if h : 5 ≤ dataBits ∧ dataBits ≤ 8 then { s with m_dataBits := dataBits, dataBits_range := h }
  else s

def setParity (s : SerialSocket) (parity : Int32) : SerialSocket :=
  if h : 0 ≤ parity ∧ parity ≤ 5 ∧ parity ≠ 1 then
    { s with m_parity := parity, parity_range := h }
  else s

def setStopBits (s : SerialSocket) (stopBits : Int32) : SerialSocket :=
  if h : 1 ≤ stopBits ∧ stopBits ≤ 3 then { s with m_stopBits := stopBits, stopBits_range := h }
  else s

def setFlowControl (s : SerialSocket) (flow : Int32) : SerialSocket :=
  if h : 0 ≤ flow ∧ flow ≤ 2 then { s with m_flowControl := flow, flowControl_range := h } else s

end SerialSocket

/-! ### The plugins of the sockets -/

/-- The entry that is present and converts is set. -/
def applyVar {σ τ : Type} (convert : QVariant → Option τ) (set : σ → τ → σ) (var : QVariant)
    (s : σ) : σ :=
  match convert var with
  | some val => set s val
  | none => s

/-- A plugin of a socket: the key of its settings, the entries of `getCurrentConfigImpl` in their
order, and what `reconfigureImpl` does with a map of such entries (`none` when it returns before it
has a socket). -/
structure SocketPlugin (σ : Type) where
  /-- the socket that `createSocketIfNeeded` makes -/
  newSocket : σ
  MainConfigKey : QString
  entries : σ → List (QString × QVariant)
  applySubConfig : QVariantMap → Option (σ → σ)

namespace SocketPlugin
variable {σ : Type} (P : SocketPlugin σ)

/-- `subConfig` with all entries inserted. -/
def subConfig (s : σ) : QVariantMap :=
  (P.entries s).foldl (fun m e => QVariantMap.insert e.1 e.2 m) []

def createSocketIfNeeded (m_socket : Option σ) : σ := m_socket.getD P.newSocket

def getCurrentConfigImpl (m_socket : Option σ) (config : QVariantMap) : Option σ × QVariantMap :=
  let s := P.createSocketIfNeeded m_socket
  (some s, QVariantMap.insert P.MainConfigKey (.map (P.subConfig s)) config)

def reconfigureImpl (m_socket : Option σ) (config : QVariantMap) : Option σ :=
  match (QVariantMap.value P.MainConfigKey config).toMap.bind P.applySubConfig with
  | some apply => some (apply (P.createSocketIfNeeded m_socket))
  | none => m_socket

end SocketPlugin

section
open QVariant QVariantMap

def tcpClientPlugin : SocketPlugin TcpClientSocket where
  newSocket := {}
  MainConfigKey := "cc_tcp_client_socket".toList
  entries s := [("host".toList, .string s.m_host), ("port".toList, .number s.m_port)]
  applySubConfig m := some fun s =>
    let s := applyVar toQString (fun s v => { s with m_host := v }) (value "host".toList m) s
    applyVar toPortType (fun s v => { s with m_port := v }) (value "port".toList m) s

def tcpServerPlugin : SocketPlugin TcpServerSocket where
  newSocket := {}
  MainConfigKey := "cc_tcp_server_socket".toList
  entries s := [("port".toList, .number s.m_port)]
  applySubConfig m := do
    let port ← (value "port".toList m).toPortType
    some fun s => { s with m_port := port }

/-- All three entries have to be there. -/
def tcpProxyPlugin : SocketPlugin TcpProxy where
  newSocket := {}
  MainConfigKey := "cc_tcp_proxy_socket".toList
  entries s :=
    [("local_port".toList, .number s.m_port), ("remote_host".toList, .string s.m_remoteHost),
      ("remote_port".toList, .number s.m_remotePort)]
  applySubConfig m := do
    let localPort ← (value "local_port".toList m).toPortType
    let remoteHost ← (value "remote_host".toList m).toQString
    let remotePort ← (value "remote_port".toList m).toPortType
    some fun s => ((s.setPort localPort).setRemoteHost remoteHost).setRemotePort remotePort

def udpGenericPlugin : SocketPlugin UdpGenericSocket where
  newSocket := {}
  MainConfigKey := "cc_udp_socket".toList
  entries s :=
    [("host".toList, .string s.m_host), ("port".toList, .number s.m_port),
      ("local_port".toList, .number s.m_localPort),
      ("broadcast_prop".toList, .string s.m_broadcastMask)]
  applySubConfig m := some fun s =>
    let s := applyVar toQString UdpGenericSocket.setHost (value "host".toList m) s
    let s := applyVar toPortType UdpGenericSocket.setPort (value "port".toList m) s
    let s := applyVar toPortType UdpGenericSocket.setLocalPort (value "local_port".toList m) s
    applyVar toQString UdpGenericSocket.setBroadcastMask (value "broadcast_prop".toList m) s

def udpProxyPlugin : SocketPlugin UdpProxy where
  newSocket := {}
  MainConfigKey := "cc_udp_proxy_socket".toList
  entries s :=
    [("remote_host".toList, .string s.m_host), ("remote_port".toList, .number s.m_port),
      ("local_port".toList, .number s.m_localPort)]
  applySubConfig m := some fun s =>
    let s := applyVar toQString UdpProxy.setHost (value "remote_host".toList m) s
    let s := applyVar toPortType UdpProxy.setPort (value "remote_port".toList m) s
    applyVar toPortType UdpProxy.setLocalPort (value "local_port".toList m) s

/-- `firstDev` is the location of the first serial port of the machine. -/
def serialPlugin (firstDev : QString) : SocketPlugin SerialSocket where
  newSocket := { m_name := firstDev }
  MainConfigKey := "cc_serial_socket".toList
  entries s :=
    [("dev".toList, .string s.m_name), ("baud".toList, .number s.m_baud.toInt),
      ("data_bits".toList, .number s.m_dataBits.toInt), ("parity".toList, .number s.m_parity.toInt),
      ("stop_bits".toList, .number s.m_stopBits.toInt),
      ("flow".toList, .number s.m_flowControl.toInt)]
  applySubConfig m := some fun s =>
    let s := applyVar toQString (fun s v => { s with m_name := v }) (value "dev".toList m) s
    let s := applyVar toInt32 SerialSocket.setBaud (value "baud".toList m) s
    let s := applyVar toInt32 SerialSocket.setDataBits (value "data_bits".toList m) s
    let s := applyVar toInt32 SerialSocket.setParity (value "parity".toList m) s
    let s := applyVar toInt32 SerialSocket.setStopBits (value "stop_bits".toList m) s
    applyVar toInt32 SerialSocket.setFlowControl (value "flow".toList m) s

/-- `secureProtocols` is the number of `QSsl::SecureProtocols`.  The entry of the private key is
looked at, but the file that is set is the one of the certificate; the passphrase has no entry. -/
def sslClientPlugin (secureProtocols : Int32) : SocketPlugin SslClientSocket where
  newSocket := { m_protocol := secureProtocols }
  MainConfigKey := "cc_ssl_client_socket".toList
  entries s :=
    [("host".toList, .string s.m_host), ("port".toList, .number s.m_port),
      ("ca_dir".toList, .string s.m_caDir),
      ("ca_dir_format".toList, .number s.m_caDirFormat.toInt),
      ("ca_file".toList, .string s.m_caFile),
      ("ca_file_format".toList, .number s.m_caFileFormat.toInt),
      ("verify".toList, .number s.m_verifyMode.toInt),
      ("verify_name".toList, .string s.m_verifyName), ("prot".toList, .number s.m_protocol.toInt),
      ("cert".toList, .string s.m_certFile), ("cert_format".toList, .number s.m_certFormat.toInt),
      ("priv".toList, .string s.m_privKeyFile), ("priv_alg".toList, .number s.m_privKeyAlg.toInt),
      ("priv_format".toList, .number s.m_privKeyFormat.toInt)]
  applySubConfig m := some fun s =>
    let s := applyVar toQString (fun s v => { s with m_host := v }) (value "host".toList m) s
    let s := applyVar toPortType (fun s v => { s with m_port := v }) (value "port".toList m) s
    let s := applyVar toQString (fun s v => { s with m_caDir := v }) (value "ca_dir".toList m) s
    let s := applyVar toInt32 (fun s v => { s with m_caDirFormat := v })
      (value "ca_dir_format".toList m) s
    let s := applyVar toQString (fun s v => { s with m_caFile := v }) (value "ca_file".toList m) s
    let s := applyVar toInt32 (fun s v => { s with m_caFileFormat := v })
      (value "ca_file_format".toList m) s
    let s := applyVar toInt32 (fun s v => { s with m_verifyMode := v }) (value "verify".toList m) s
    let s := applyVar toQString (fun s v => { s with m_verifyName := v })
      (value "verify_name".toList m) s
    let s := applyVar toInt32 (fun s v => { s with m_protocol := v }) (value "prot".toList m) s
    let certVar := value "cert".toList m
    let s := applyVar toQString (fun s v => { s with m_certFile := v }) certVar s
    let s := applyVar toInt32 (fun s v => { s with m_certFormat := v })
      (value "cert_format".toList m) s
    let s := applyVar toQString (fun s _ => { s with m_privKeyFile := certVar.toQString.getD [] })
      (value "priv".toList m) s
    let s := applyVar toInt32 (fun s v => { s with m_privKeyAlg := v })
      (value "priv_alg".toList m) s
    applyVar toInt32 (fun s v => { s with m_privKeyFormat := v }) (value "priv_format".toList m) s

end

/-! ### What a plugin writes and reads -/

theorem QVariantMap.value_foldl_insert_of_not_mem {l : List (QString × QVariant)} {k : QString}
    (h : k ∉ l.map Prod.fst) (m : QVariantMap) :
    value k (l.foldl (fun m e => insert e.1 e.2 m) m) = value k m := by
  induction l generalizing m with
  | nil => rfl
  | cons e l ih =>
      rw [List.map_cons, List.mem_cons, not_or] at h
      rw [List.foldl_cons, ih h.2, value_insert_of_ne (Ne.symm h.1)]

theorem QVariantMap.value_foldl_insert {l : List (QString × QVariant)}
    (hnodup : (l.map Prod.fst).Nodup) {k : QString} {v : QVariant} (h : (k, v) ∈ l)
    (m : QVariantMap) : value k (l.foldl (fun m e => insert e.1 e.2 m) m) = v := by
  induction l generalizing m with
  | nil => cases h
  | cons e l ih =>
      obtain ⟨hmem, hnodup⟩ := List.nodup_cons.mp hnodup
      rw [List.foldl_cons]
      rcases List.mem_cons.mp h with rfl | h
      · rw [value_foldl_insert_of_not_mem hmem, value_insert_self]
      · exact ih hnodup h _

namespace SocketPlugin
variable {σ : Type} (P : SocketPlugin σ)

/-- A plugin as a component of the configuration. -/
def component : Sections.Component QVariantMap (Option σ) where
  save := P.getCurrentConfigImpl
  load := P.reconfigureImpl

theorem owns : Sections.Owns QVariantMap.value P.component {P.MainConfigKey} where
  frame s m k hk := QVariantMap.value_insert_of_ne (fun e => hk e.symm) _ m
  writes s m m' k hk := by
    obtain rfl : k = P.MainConfigKey := hk
    exact (QVariantMap.value_insert_self _ _ m).trans (QVariantMap.value_insert_self _ _ m').symm
  reads s m m' h := by
    show P.reconfigureImpl s m = P.reconfigureImpl s m'
    rw [reconfigureImpl, reconfigureImpl, h _ rfl]

end SocketPlugin

@[simp] theorem QVariant.toPortType_number {n : ℕ} (h : n < 2 ^ 16) :
    toPortType (.number n) = some n := by
  simp only [toPortType, toUnsigned, Option.some.injEq]
  omega

@[simp] theorem QVariant.toInt32_number (n : Int32) : toInt32 (.number n.toInt) = some n := by
  simp [toInt32, toInt]

/-! ### What each plugin reads of its own entries -/

/-- The entries a plugin writes for a socket turn another socket into `f` of it. -/
def SocketPlugin.Restores {σ : Type} (P : SocketPlugin σ) (s : σ) (f : σ → σ) : Prop :=
  ∃ apply, P.applySubConfig (P.subConfig s) = some apply ∧ ∀ t, apply t = f t

theorem SocketPlugin.Restores.load_save {σ : Type} {P : SocketPlugin σ} (m_socket before : Option σ)
    {f : σ → σ} (h : P.Restores (P.createSocketIfNeeded m_socket) f) :
    P.component.load before (P.component.save m_socket []).2 =
      some (f (P.createSocketIfNeeded before)) := by
  obtain ⟨apply, happly, hf⟩ := h
  show P.reconfigureImpl before (P.getCurrentConfigImpl m_socket []).2 = _
  rw [reconfigureImpl, getCurrentConfigImpl, QVariantMap.value_insert_self]
  simp only [QVariant.toMap, Option.bind_some, happly, hf]

theorem SocketPlugin.value_subConfig {σ : Type} {P : SocketPlugin σ} {s : σ}
    (hnodup : ((P.entries s).map Prod.fst).Nodup) {k : QString} {v : QVariant} (i : ℕ)
    (h : (P.entries s)[i]? = some (k, v)) : QVariantMap.value k (P.subConfig s) = v :=
  QVariantMap.value_foldl_insert hnodup (List.mem_of_getElem? h) []

theorem tcpClientPlugin_restores {s : TcpClientSocket} (hport : s.m_port < 2 ^ 16) :
    tcpClientPlugin.Restores s fun _ => s := by
  have hkeys : ((tcpClientPlugin.entries s).map Prod.fst).Nodup := by
    show List.Nodup ["host".toList, "port".toList]
    decide
  have h0 := SocketPlugin.value_subConfig hkeys 0 rfl
  have h1 := SocketPlugin.value_subConfig hkeys 1 rfl
  refine ⟨_, rfl, fun t => ?_⟩
  simp only [applyVar, h0, h1, QVariant.toQString, QVariant.toPortType_number hport]

theorem tcpServerPlugin_restores {s : TcpServerSocket} (hport : s.m_port < 2 ^ 16) :
    tcpServerPlugin.Restores s fun _ => s := by
  have h0 := SocketPlugin.value_subConfig (P := tcpServerPlugin) (s := s) (List.nodup_singleton _)
    0 rfl
  have happly (m : QVariantMap) : tcpServerPlugin.applySubConfig m =
      (QVariantMap.value "port".toList m).toPortType.bind fun port =>
        some fun s => { s with m_port := port } := rfl
  refine ⟨_, ?_, fun t => rfl⟩
  rw [happly, h0, QVariant.toPortType_number hport]
  rfl

theorem tcpProxyPlugin_restores {s : TcpProxy} (hport : s.m_port < 2 ^ 16)
    (hremote : s.m_remotePort < 2 ^ 16) :
    tcpProxyPlugin.Restores s fun t =>
      ((t.setPort s.m_port).setRemoteHost s.m_remoteHost).setRemotePort s.m_remotePort := by
  have hkeys : ((tcpProxyPlugin.entries s).map Prod.fst).Nodup := by
    show List.Nodup ["local_port".toList, "remote_host".toList, "remote_port".toList]
    decide
  have h0 := SocketPlugin.value_subConfig hkeys 0 rfl
  have h1 := SocketPlugin.value_subConfig hkeys 1 rfl
  have h2 := SocketPlugin.value_subConfig hkeys 2 rfl
  have happly (m : QVariantMap) : tcpProxyPlugin.applySubConfig m =
      (QVariantMap.value "local_port".toList m).toPortType.bind fun localPort =>
        (QVariantMap.value "remote_host".toList m).toQString.bind fun remoteHost =>
          (QVariantMap.value "remote_port".toList m).toPortType.bind fun remotePort =>
            some fun s =>
              ((s.setPort localPort).setRemoteHost remoteHost).setRemotePort remotePort :=
    rfl
  refine ⟨_, ?_, fun t => rfl⟩
  rw [happly, h0, h1, h2, QVariant.toPortType_number hport, QVariant.toPortType_number hremote]
  rfl

theorem udpGenericPlugin_restores {s : UdpGenericSocket} (hport : s.m_port < 2 ^ 16)
    (hlocal : s.m_localPort < 2 ^ 16) : udpGenericPlugin.Restores s fun _ => s := by
  have hkeys : ((udpGenericPlugin.entries s).map Prod.fst).Nodup := by
    show List.Nodup ["host".toList, "port".toList, "local_port".toList, "broadcast_prop".toList]
    decide
  have h0 := SocketPlugin.value_subConfig hkeys 0 rfl
  have h1 := SocketPlugin.value_subConfig hkeys 1 rfl
  have h2 := SocketPlugin.value_subConfig hkeys 2 rfl
  have h3 := SocketPlugin.value_subConfig hkeys 3 rfl
  refine ⟨_, rfl, fun t => ?_⟩
  simp only [applyVar, h0, h1, h2, h3, QVariant.toQString, QVariant.toPortType_number hport,
    QVariant.toPortType_number hlocal]
  rfl

theorem udpProxyPlugin_restores {s : UdpProxy} (hport : s.m_port < 2 ^ 16)
    (hlocal : s.m_localPort < 2 ^ 16) :
    udpProxyPlugin.Restores s fun t =>
      ((t.setHost s.m_host).setPort s.m_port).setLocalPort s.m_localPort := by
  have hkeys : ((udpProxyPlugin.entries s).map Prod.fst).Nodup := by
    show List.Nodup ["remote_host".toList, "remote_port".toList, "local_port".toList]
    decide
  have h0 := SocketPlugin.value_subConfig hkeys 0 rfl
  have h1 := SocketPlugin.value_subConfig hkeys 1 rfl
  have h2 := SocketPlugin.value_subConfig hkeys 2 rfl
  refine ⟨_, rfl, fun t => ?_⟩
  simp only [applyVar, h0, h1, h2, QVariant.toQString, QVariant.toPortType_number hport,
    QVariant.toPortType_number hlocal]

/-- A rate that is not positive is not taken. -/
theorem serialPlugin_restores (firstDev : QString) (s : SerialSocket) :
    (serialPlugin firstDev).Restores s fun t =>
      { s with m_baud := if 0 < s.m_baud then s.m_baud else t.m_baud } := by
  have hkeys : (((serialPlugin firstDev).entries s).map Prod.fst).Nodup := by
    show List.Nodup ["dev".toList, "baud".toList, "data_bits".toList, "parity".toList,
      "stop_bits".toList, "flow".toList]
    decide
  have h0 := SocketPlugin.value_subConfig hkeys 0 rfl
  have h1 := SocketPlugin.value_subConfig hkeys 1 rfl
  have h2 := SocketPlugin.value_subConfig hkeys 2 rfl
  have h3 := SocketPlugin.value_subConfig hkeys 3 rfl
  have h4 := SocketPlugin.value_subConfig hkeys 4 rfl
  have h5 := SocketPlugin.value_subConfig hkeys 5 rfl
  refine ⟨_, rfl, fun t => ?_⟩
  simp only [applyVar, h0, h1, h2, h3, h4, h5, QVariant.toQString, QVariant.toInt32_number,
    SerialSocket.setFlowControl, dif_pos s.flowControl_range, SerialSocket.setStopBits,
    dif_pos s.stopBits_range, SerialSocket.setParity, dif_pos s.parity_range,
    SerialSocket.setDataBits, dif_pos s.dataBits_range, SerialSocket.setBaud]
  split <;> rfl

/-- The file of the private key becomes the one of the certificate, and its passphrase stays as it
is. -/
theorem sslClientPlugin_restores (secureProtocols : Int32) {s : SslClientSocket}
    (hport : s.m_port < 2 ^ 16) :
    (sslClientPlugin secureProtocols).Restores s fun t =>
      { s with m_privKeyFile := s.m_certFile, m_privKeyPass := t.m_privKeyPass } := by
  have hkeys : (((sslClientPlugin secureProtocols).entries s).map Prod.fst).Nodup := by
    show List.Nodup ["host".toList, "port".toList, "ca_dir".toList, "ca_dir_format".toList,
      "ca_file".toList, "ca_file_format".toList, "verify".toList, "verify_name".toList,
      "prot".toList, "cert".toList, "cert_format".toList, "priv".toList, "priv_alg".toList,
      "priv_format".toList]
    decide
  have hv {k : QString} {v : QVariant} (i : ℕ)
      (h : ((sslClientPlugin secureProtocols).entries s)[i]? = some (k, v)) :=
    SocketPlugin.value_subConfig hkeys i h
  refine ⟨_, rfl, fun t => ?_⟩
  simp only [applyVar, hv 0 rfl, hv 1 rfl, hv 2 rfl, hv 3 rfl, hv 4 rfl, hv 5 rfl, hv 6 rfl,
    hv 7 rfl, hv 8 rfl, hv 9 rfl, hv 10 rfl, hv 11 rfl, hv 12 rfl, hv 13 rfl, QVariant.toQString,
    QVariant.toPortType_number hport, QVariant.toInt32_number, Option.getD_some]

/-! ### The plugins of the repository -/

/-- The key of the list of the plugins. -/
def PluginsKey : QString := "cc_plugins_list".toList

/-- What a new socket takes from the machine. -/
structure Machine where
  firstDev : QString
  secureProtocols : Int32

inductive Library where
  | EchoSocketPlugin
  | NullSocketPlugin
  | SerialSocketPlugin
  | SslClientSocketPlugin
  | TcpClientSocketPlugin
  | TcpServerSocketPlugin
  | TcpProxySocketPlugin
  | UdpGenericSocketPlugin
  | UdpProxySocketPlugin
  | RawDataProtocolPlugin
  | DemoPlugin
  deriving DecidableEq

namespace Library

/-- The IID in the meta data of the plugin. -/
def iid : Library → QString
  | EchoSocketPlugin => "cc.EchoSocketPlugin".toList
  | NullSocketPlugin => "cc.NullSocketPlugin".toList
  | SerialSocketPlugin => "cc.SerialSocketPlugin".toList
  | SslClientSocketPlugin => "cc.SslClientSocketPlugin".toList
  | TcpClientSocketPlugin => "cc.TcpClientSocketPlugin".toList
  | TcpServerSocketPlugin => "cc.TcpServerSocketPlugin".toList
  | TcpProxySocketPlugin => "cc.TcpProxySocketPlugin".toList
  | UdpGenericSocketPlugin => "cc.UdpSocketPlugin".toList
  | UdpProxySocketPlugin => "cc.UdpProxySocketPlugin".toList
  | RawDataProtocolPlugin => "cc.RawDataProtocol".toList
  | DemoPlugin => "cc.DemoProtocol".toList

/-- The socket with settings that a plugin holds. -/
def Socket : Library → Type
  | SerialSocketPlugin => SerialSocket
  | SslClientSocketPlugin => SslClientSocket
  | TcpClientSocketPlugin => TcpClientSocket
  | TcpServerSocketPlugin => TcpServerSocket
  | TcpProxySocketPlugin => TcpProxy
  | UdpGenericSocketPlugin => UdpGenericSocket
  | UdpProxySocketPlugin => UdpProxy
  | _ => Unit

section
variable (M : Machine)

/-- `none` for a plugin that has nothing to configure. -/
def plugin : ∀ p : Library, Option (SocketPlugin p.Socket)
  | SerialSocketPlugin => some (serialPlugin M.firstDev)
  | SslClientSocketPlugin => some (sslClientPlugin M.secureProtocols)
  | TcpClientSocketPlugin => some tcpClientPlugin
  | TcpServerSocketPlugin => some tcpServerPlugin
  | TcpProxySocketPlugin => some tcpProxyPlugin
  | UdpGenericSocketPlugin => some udpGenericPlugin
  | UdpProxySocketPlugin => some udpProxyPlugin
  | EchoSocketPlugin | NullSocketPlugin | RawDataProtocolPlugin | DemoPlugin => none

/-- `getCurrentConfig` and `reconfigure`; they do nothing where a plugin does not override them. -/
def component (p : Library) : Sections.Component QVariantMap (Option p.Socket) :=
  match p.plugin M with
  | some P => P.component
  | none => { save := fun s config => (s, config), load := fun s _ => s }

/-- The key of the settings. -/
def mainKey (p : Library) : Option QString := (p.plugin M).map SocketPlugin.MainConfigKey

def keys (p : Library) : Set QString := { k | p.mainKey M = some k }

theorem owns (p : Library) : Sections.Owns QVariantMap.value (p.component M) (p.keys M) := by
  unfold component keys mainKey
  cases p.plugin M with
  | some P =>
      have e : { k | (some P).map SocketPlugin.MainConfigKey = some k } = {P.MainConfigKey} := by
        ext k
        simp [eq_comm]
      rw [e]
      exact P.owns
  | none => exact ⟨fun _ _ _ _ => rfl, fun _ _ _ _ h => by simp at h, fun _ _ _ _ => rfl⟩

theorem mainKey_congr (M' : Machine) (p : Library) : p.mainKey M = p.mainKey M' := by
  cases p <;> rfl

/-- No two plugins have the same key. -/
theorem mainKey_ne {p q : Library} (hne : p ≠ q) {k : QString} (h : p.mainKey M = some k) :
    q.mainKey M ≠ some k := by
  intro hq
  rw [← h, mainKey_congr M ⟨[], 0⟩ q, mainKey_congr M ⟨[], 0⟩ p] at hq
  cases p <;> cases q <;> first
    | exact hne rfl
    | exact absurd h.symm (Option.some_ne_none k)
    | exact absurd hq (by decide)

theorem keys_disjoint (p q : Library) (hne : p ≠ q) : ∀ k ∈ p.keys M, k ∉ q.keys M :=
  fun _ hp hq => mainKey_ne M hne hp hq

end

theorem pluginsKey_ne {M : Machine} (p : Library) {k : QString} (hk : k ∈ p.keys M) :
    PluginsKey ≠ k := by
  intro h
  have hkey : p.mainKey ⟨[], 0⟩ = some PluginsKey := by rw [← mainKey_congr M, h, hk]
  cases p <;> first
    | exact absurd hkey (Option.some_ne_none _).symm
    | exact absurd hkey (by decide)

theorem iid_injective : Function.Injective iid := by
  intro p q h
  cases p <;> cases q <;> first
    | rfl
    | exact absurd h (by decide)

/-- The ports of a socket are numbers of the type `PortType`. -/
def PortsFit : ∀ p : Library, p.Socket → Prop
  | SslClientSocketPlugin, (s : SslClientSocket) => s.m_port < 2 ^ 16
  | TcpClientSocketPlugin, (s : TcpClientSocket) => s.m_port < 2 ^ 16
  | TcpServerSocketPlugin, (s : TcpServerSocket) => s.m_port < 2 ^ 16
  | TcpProxySocketPlugin, (s : TcpProxy) => s.m_port < 2 ^ 16 ∧ s.m_remotePort < 2 ^ 16
  | UdpGenericSocketPlugin, (s : UdpGenericSocket) => s.m_port < 2 ^ 16 ∧ s.m_localPort < 2 ^ 16
  | UdpProxySocketPlugin, (s : UdpProxy) => s.m_port < 2 ^ 16 ∧ s.m_localPort < 2 ^ 16
  | _, _ => True

/-- Two sockets have the same settings; those of the proxies have a connection as well. -/
def SameSettings : ∀ p : Library, p.Socket → p.Socket → Prop
  | TcpProxySocketPlugin, (s : TcpProxy), (t : TcpProxy) => s.settings = t.settings
  | UdpProxySocketPlugin, (s : UdpProxy), (t : UdpProxy) => s.settings = t.settings
  | _, s, t => s = t

/-- When the settings of `s` come back on a socket `t`. -/
def ComesBack : ∀ p : Library, p.Socket → p.Socket → Prop
  | SerialSocketPlugin, (s : SerialSocket), (t : SerialSocket) =>
      0 < s.m_baud ∨ t.m_baud = s.m_baud
  | SslClientSocketPlugin, (s : SslClientSocket), (t : SslClientSocket) =>
      s.m_privKeyFile = s.m_certFile ∧ t.m_privKeyPass = s.m_privKeyPass
  | _, _, _ => True

theorem serial_same_iff (s t : SerialSocket) :
    { s with m_baud := if 0 < s.m_baud then s.m_baud else t.m_baud } = s ↔
      0 < s.m_baud ∨ t.m_baud = s.m_baud := by
  constructor
  · intro h
    have hbaud : (if 0 < s.m_baud then s.m_baud else t.m_baud) = s.m_baud :=
      congrArg SerialSocket.m_baud h
    by_cases hpos : 0 < s.m_baud
    · exact .inl hpos
    · exact .inr (by rwa [if_neg hpos] at hbaud)
  · intro h
    have hbaud : (if 0 < s.m_baud then s.m_baud else t.m_baud) = s.m_baud := by
      split_ifs with hpos
      · rfl
      · exact h.resolve_left hpos
    rw [hbaud]

theorem ssl_same_iff (s t : SslClientSocket) :
    { s with m_privKeyFile := s.m_certFile, m_privKeyPass := t.m_privKeyPass } = s ↔
      s.m_privKeyFile = s.m_certFile ∧ t.m_privKeyPass = s.m_privKeyPass := by
  constructor
  · intro h
    have hfile := congrArg SslClientSocket.m_privKeyFile h
    have hpass := congrArg SslClientSocket.m_privKeyPass h
    exact ⟨hfile.symm, hpass⟩
  · rintro ⟨hfile, hpass⟩
    cases s
    cases hfile
    cases hpass
    rfl

variable {M : Machine} {p : Library}

/-- **What a plugin reads back** of the entry that it wrote. -/
theorem load_save_iff {P : SocketPlugin p.Socket} (hP : p.plugin M = some P)
    (x y : Option p.Socket) (hports : p.PortsFit (P.createSocketIfNeeded x)) :
    ∃ u, (p.component M).load y ((p.component M).save x []).2 = some u ∧
      (p.SameSettings u (P.createSocketIfNeeded x) ↔
        p.ComesBack (P.createSocketIfNeeded x) (P.createSocketIfNeeded y)) := by
  cases p with
  | EchoSocketPlugin | NullSocketPlugin | RawDataProtocolPlugin | DemoPlugin => cases hP
  | SerialSocketPlugin =>
      obtain rfl := Option.some.inj hP
      exact ⟨_, (serialPlugin_restores _ _).load_save x y, serial_same_iff _ _⟩
  | SslClientSocketPlugin =>
      obtain rfl := Option.some.inj hP
      exact ⟨_, (sslClientPlugin_restores _ hports).load_save x y, ssl_same_iff _ _⟩
  | TcpClientSocketPlugin =>
      obtain rfl := Option.some.inj hP
      exact ⟨_, (tcpClientPlugin_restores hports).load_save x y, iff_of_true rfl trivial⟩
  | TcpServerSocketPlugin =>
      obtain rfl := Option.some.inj hP
      exact ⟨_, (tcpServerPlugin_restores hports).load_save x y, iff_of_true rfl trivial⟩
  | TcpProxySocketPlugin =>
      obtain rfl := Option.some.inj hP
      exact ⟨_, (tcpProxyPlugin_restores hports.1 hports.2).load_save x y,
        iff_of_true rfl trivial⟩
  | UdpGenericSocketPlugin =>
      obtain rfl := Option.some.inj hP
      exact ⟨_, (udpGenericPlugin_restores hports.1 hports.2).load_save x y,
        iff_of_true rfl trivial⟩
  | UdpProxySocketPlugin =>
      obtain rfl := Option.some.inj hP
      exact ⟨_, (udpProxyPlugin_restores hports.1 hports.2).load_save x y,
        iff_of_true rfl trivial⟩

end Library

/-! ### The plugin manager -/

/-- What the libraries that are loaded hold. -/
abbrev Libraries := ∀ p : Library, Option p.Socket

/-- `ToolsConfigMgr::loadConfig`; `fromJson` is `none` for a document with an error and for one that
is not an object. -/
def ToolsConfigMgr.loadConfig (fromJson : DataSeq → Option QVariantMap) (opened : Bool)
    (disk : Files.Disk QString UInt8) (mgr : ToolsConfigMgr) (filename : QString) :
    ToolsConfigMgr × QVariantMap :=
  match (if opened then disk.content filename else none).bind fromJson with
  | some config => ({ m_lastConfigFile := filename }, config)
  | none => (mgr, [])

namespace PluginFiles

section
variable (M : Machine)

def getConfigForPlugins (infos : List Library) (libs : Libraries) : Libraries × QVariantMap :=
  let (libs, config) := Sections.saveAll (Library.component M) infos libs []
  let pluginsList := infos.map fun info => QVariant.string info.iid
  (libs, QVariantMap.insert PluginsKey (.list pluginsList) config)

/-- One round of the loop over the IIDs. -/
def loadPlugin (avail : List Library) (config : QVariantMap) (r : Libraries × List Library)
    (iidVar : QVariant) : Libraries × List Library :=
  match iidVar.toQString.bind fun iid => avail.find? fun info => decide (info.iid = iid) with
  | none => r
  | some info =>
      (Function.update r.1 info ((info.component M).load (r.1 info) config), r.2 ++ [info])

def loadPluginsFromConfig (avail : List Library) (config : QVariantMap) (libs : Libraries) :
    Libraries × List Library :=
  match (QVariantMap.value PluginsKey config).toList with
  | none => (libs, [])
  | some varList => varList.foldl (loadPlugin M avail config) (libs, [])

/-- What is left when a file has been loaded. -/
structure Loaded where
  mgr : ToolsConfigMgr
  libs : Libraries
  infos : List Library

def loadPluginsFromConfigFile (fromJson : DataSeq → Option QVariantMap) (opened : Bool)
    (disk : Files.Disk QString UInt8) (mgr : ToolsConfigMgr) (avail : List Library)
    (filename : QString) (libs : Libraries) : Loaded :=
  let (mgr, config) := mgr.loadConfig fromJson opened disk filename
  if config.isEmpty then { mgr, libs, infos := [] }
  else
    let (libs, infos) := loadPluginsFromConfig M avail config libs
    { mgr, libs, infos }

def savePluginsToConfigFile (toJson : QVariantMap → DataSeq) (calls : FileCalls)
    (disk : Files.Disk QString UInt8) (mgr : ToolsConfigMgr) (infos : List Library)
    (filename : QString) (libs : Libraries) : Libraries × Saving ToolsConfigMgr :=
  let (libs, config) := getConfigForPlugins M infos libs
  (libs, mgr.saveConfig toJson calls disk filename config true)

end

section
variable {M : Machine} {avail infos : List Library} {config : QVariantMap} {libs : Libraries}

theorem find?_iid {info : Library} (h : info ∈ avail) :
    avail.find? (fun i => decide (i.iid = info.iid)) = some info := by
  have hsome : (avail.find? fun i => decide (i.iid = info.iid)).isSome = true :=
    List.find?_isSome.mpr ⟨info, h, by simp⟩
  obtain ⟨found, hfound⟩ := Option.isSome_iff_exists.mp hsome
  have hiid : found.iid = info.iid := by simpa using List.find?_some hfound
  rw [hfound, Library.iid_injective hiid]

theorem foldl_loadPlugin (havail : infos ⊆ avail) (before : List Library) :
    (infos.map fun info => QVariant.string info.iid).foldl (loadPlugin M avail config)
        (libs, before) =
      (Sections.loadAll (Library.component M) config infos libs, before ++ infos) := by
  induction infos generalizing libs before with
  | nil => simp [Sections.loadAll]
  | cons info infos ih =>
      have hfind := find?_iid (havail List.mem_cons_self)
      have hround : loadPlugin M avail config (libs, before) (.string info.iid) =
          (Function.update libs info ((info.component M).load (libs info) config),
            before ++ [info]) := by
        simp only [loadPlugin, QVariant.toQString, Option.bind_some, hfind]
      rw [List.map_cons, List.foldl_cons, hround, ih fun p hp => havail (List.mem_cons_of_mem _ hp),
        List.append_assoc, List.singleton_append, Sections.loadAll]

/-- The entry of the list does not get into those of the plugins. -/
theorem value_getConfigForPlugins {p : Library} {k : QString} (hk : k ∈ p.keys M) :
    QVariantMap.value k (getConfigForPlugins M infos libs).2 =
      QVariantMap.value k (Sections.saveAll (Library.component M) infos libs []).2 :=
  QVariantMap.value_insert_of_ne (p.pluginsKey_ne hk) _ _

theorem loadPluginsFromConfig_saved (havail : infos ⊆ avail) (before : Libraries) :
    let config := (getConfigForPlugins M infos libs).2
    loadPluginsFromConfig M avail config before =
      (Sections.loadAll (Library.component M) config infos before, infos) := by
  intro config
  have hlist : QVariantMap.value PluginsKey config =
      .list (infos.map fun info => .string info.iid) := QVariantMap.value_insert_self _ _ _
  rw [loadPluginsFromConfig, hlist]
  exact (foldl_loadPlugin havail []).trans (by rw [List.nil_append])

end

/-- What a file holds after a saving that succeeded and wrote everything. -/
theorem saveDocument_content {calls : FileCalls} {disk : Files.Disk QString UInt8}
    {filename : QString} {data : DataSeq} (hok : (saveDocument calls disk filename data).2 = true)
    (hwritten : data.length ≤ calls.written) :
    (saveDocument calls disk filename data).1.content filename = some data := by
  by_cases hreached : calls.Reached disk filename
  · obtain ⟨hren, hcontent⟩ := saveDocument_of_reached data hreached
    rw [hcontent, ← hren, if_pos hok, List.take_of_length_le hwritten]
  · rw [(saveDocument_of_not_reached data hreached).1] at hok
    cases hok

section
variable {M : Machine} {avail infos : List Library} {libs : Libraries}
variable {toJson : QVariantMap → DataSeq} {fromJson : DataSeq → Option QVariantMap}
variable {calls : FileCalls} {disk : Files.Disk QString UInt8} {mgr : ToolsConfigMgr}
variable {filename : QString}

/-- **A file that was saved is loaded again**: the list of the plugins comes back, libraries
outside it are not touched, and of each plugin in it the settings come back exactly as
`Library.ComesBack` says. -/
theorem saved_restored_iff (hnodup : infos.Nodup) (havail : infos ⊆ avail)
    (hports : ∀ p ∈ infos, ∀ P, p.plugin M = some P →
      p.PortsFit (P.createSocketIfNeeded (libs p)))
    (hread : fromJson (toJson (getConfigForPlugins M infos libs).2) =
      some (getConfigForPlugins M infos libs).2)
    (hwritten : (toJson (getConfigForPlugins M infos libs).2).length ≤ calls.written)
    (hok : (savePluginsToConfigFile M toJson calls disk mgr infos filename libs).2.ok = true)
    (mgr' : ToolsConfigMgr) (before : Libraries) :
    let saved := (savePluginsToConfigFile M toJson calls disk mgr infos filename libs).2
    let loaded := loadPluginsFromConfigFile M fromJson true saved.disk mgr' avail filename before
    loaded.infos = infos ∧ loaded.mgr.getLastFile = filename ∧
      (∀ p ∉ infos, loaded.libs p = before p) ∧
      ∀ p ∈ infos, ∀ P, p.plugin M = some P → ∃ u, loaded.libs p = some u ∧
        (p.SameSettings u (P.createSocketIfNeeded (libs p)) ↔
          p.ComesBack (P.createSocketIfNeeded (libs p)) (P.createSocketIfNeeded (before p))) := by
  intro saved loaded
  set config := (getConfigForPlugins M infos libs).2 with hconfig
  have hcontent : saved.disk.content filename = some (toJson config) :=
    saveDocument_content hok hwritten
  have hload : mgr'.loadConfig fromJson true saved.disk filename =
      ({ m_lastConfigFile := filename }, config) := by
    rw [ToolsConfigMgr.loadConfig, if_pos rfl, hcontent, Option.bind_some, hread]
  have hne : config.isEmpty = false := by
    rw [List.isEmpty_eq_false_iff]
    exact QVariantMap.insert_ne_nil _ _ _
  have hloaded : loaded = ⟨{ m_lastConfigFile := filename },
      Sections.loadAll (Library.component M) config infos before, infos⟩ := by
    show loadPluginsFromConfigFile M fromJson true saved.disk mgr' avail filename before = _
    rw [loadPluginsFromConfigFile, hload]
    dsimp only
    rw [hne, if_neg (by decide), loadPluginsFromConfig_saved havail]
  rw [hloaded]
  refine ⟨rfl, rfl, fun p hp => Sections.loadAll_of_not_mem hp, fun p hp P hP => ?_⟩
  obtain ⟨u, hu, hiff⟩ := Library.load_save_iff hP (libs p) (before p) (hports p hp P hP)
  refine ⟨u, ?_, hiff⟩
  rw [← hu]
  exact Sections.loadAll_saveAll (Library.owns M) (Library.keys_disjoint M) hnodup hp
    fun k hk => value_getConfigForPlugins hk

end

/-! ### A server socket and the demo protocol -/

def sampleInfos : List Library := [.TcpServerSocketPlugin, .DemoPlugin]

def sampleConfig : QVariantMap := (getConfigForPlugins ⟨[], 7⟩ sampleInfos fun _ => none).2

/-- The document of `sampleConfig`. -/
def sampleDocument : DataSeq :=
  ("\x7b\n    \"cc_plugins_list\": [\n        \"cc.TcpServerSocketPlugin\",\n" ++
    "        \"cc.DemoProtocol\"\n    ],\n    \"cc_tcp_server_socket\": \x7b\n" ++
    "        \"port\": 20000\n    \x7d\n\x7d\n").toList.map fun c => c.toNat.toUInt8

def sampleRead (data : DataSeq) : Option QVariantMap :=
  if data = sampleDocument then some sampleConfig else none

theorem length_sampleDocument : sampleDocument.length ≤ 200 := by decide +kernel

theorem sampleRead_document : sampleRead sampleDocument = some sampleConfig := if_pos rfl

/-- The server was set to another port meanwhile. -/
def sampleBefore : Libraries
  | .TcpServerSocketPlugin => some (TcpServerSocket.mk 1)
  | _ => none

def sampleCalls : FileCalls := { allWell with written := 200 }

def sampleSaved : Saving ToolsConfigMgr :=
  (savePluginsToConfigFile ⟨[], 7⟩ (fun _ => sampleDocument) sampleCalls oldDisk ⟨[]⟩ sampleInfos
    ['a'] fun _ => none).2

def sampleLoaded : Loaded :=
  loadPluginsFromConfigFile ⟨[], 7⟩ sampleRead true sampleSaved.disk ⟨[]⟩ sampleInfos ['a']
    sampleBefore

theorem sampleSaved_ok : sampleSaved.ok = true := by
  have hreached : sampleCalls.Reached oldDisk ['a'] := ⟨rfl, fun _ => rfl⟩
  exact (saveDocument_of_reached sampleDocument hreached).1

theorem saved_restored_iff_sample : sampleLoaded.infos = sampleInfos ∧
    sampleLoaded.libs .TcpServerSocketPlugin = some (TcpServerSocket.mk 20000) := by
  have hports : ∀ p ∈ sampleInfos, ∀ P, p.plugin ⟨[], 7⟩ = some P →
      p.PortsFit (P.createSocketIfNeeded none) := by
    intro p hp P hP
    simp only [sampleInfos, List.mem_cons, List.not_mem_nil, or_false] at hp
    rcases hp with rfl | rfl
    · obtain rfl := Option.some.inj hP
      show 20000 < 2 ^ 16
      omega
    · cases hP
  obtain ⟨hinfos, -, -, hlibs⟩ := @saved_restored_iff ⟨[], 7⟩ sampleInfos sampleInfos _
    (fun _ => sampleDocument) sampleRead _ _ _ _ (by decide) (List.Subset.refl _) hports
    sampleRead_document length_sampleDocument sampleSaved_ok ⟨[]⟩ sampleBefore
  obtain ⟨u, hu, hsame⟩ := hlibs .TcpServerSocketPlugin List.mem_cons_self _ rfl
  have hport : u = TcpServerSocket.mk 20000 := hsame.mpr trivial
  exact ⟨hinfos, hu.trans (congrArg some hport)⟩

end PluginFiles

end CcToolsQt
