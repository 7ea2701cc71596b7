import CcToolsQt.Protocol
import Mathlib.Logic.Function.Basic

/-! # The message manager

`ToolsMsgMgrImpl`: the socket data that goes up through the filters to the protocol, the messages
that go down, and the store `m_allMsgs` of pointers to message objects.

What the plugins answer is an input of the operations.  A `SendReq` is one message passed to
`sendMsgs` with the result of `write()` and the messages the protocol sends re-entrantly from
inside `messageSentReport()`; a `RecvMsg` is one message `read()` returns, with those it sends
from inside `messageReceivedReport()`.  A run that returns has finite trees of such requests, and
every tree is a possible behaviour of some protocol.

`handed` is not part of the program: it records each non-null message that is decoded, passed to
`sendMsgs` or passed to `addMsgs` with a valid type, as the loop over it reaches it, with the
type it is to be stored with. -/

namespace CcToolsQt

/-- A `ToolsMessagePtr` that is not null. -/
abbrev MsgPtr := ℕ

/-! ### Filters -/

/-- A filter plugin with its state. -/
structure ToolsFilter (σ : Type) where
  state : σ
  recvDataImpl : σ → ToolsDataInfo → σ × List ToolsDataInfo
  sendDataImpl : σ → ToolsDataInfo → σ × List ToolsDataInfo

namespace ToolsFilter
variable {σ : Type}

def recvData (f : ToolsFilter σ) (d : ToolsDataInfo) : ToolsFilter σ × List ToolsDataInfo :=
  let r := f.recvDataImpl f.state d
  ({ f with state := r.1 }, r.2)

def sendData (f : ToolsFilter σ) (d : ToolsDataInfo) : ToolsFilter σ × List ToolsDataInfo :=
  let r := f.sendDataImpl f.state d
  ({ f with state := r.1 }, r.2)

/-- One filter's operation on every data block, the results put one after the other. -/
def onAll (op : ToolsFilter σ → ToolsDataInfo → ToolsFilter σ × List ToolsDataInfo)
    (f : ToolsFilter σ) : List ToolsDataInfo → ToolsFilter σ × List ToolsDataInfo
  | [] => (f, [])
  | d :: ds =>
      let r := op f d
      let r' := onAll op r.1 ds
      (r'.1, r.2 ++ r'.2)

/-- The operation of each filter in turn, as long as there is data. -/
def chain (op : ToolsFilter σ → ToolsDataInfo → ToolsFilter σ × List ToolsDataInfo) :
    List (ToolsFilter σ) → List ToolsDataInfo → List (ToolsFilter σ) × List ToolsDataInfo
  | [], data => ([], data)
  | f :: fs, data =>
      if data.isEmpty then (f :: fs, [])
      else
        let r := onAll op f data
        let r' := chain op fs r.2
        (r.1 :: r'.1, r'.2)

/-- Received data passes the filters from first to last. -/
def recvChain (fs : List (ToolsFilter σ)) (d : ToolsDataInfo) :
    List (ToolsFilter σ) × List ToolsDataInfo :=
  chain recvData fs [d]

/-- Data to send passes the filters from last to first. -/
def sendChain (fs : List (ToolsFilter σ)) (d : ToolsDataInfo) :
    List (ToolsFilter σ) × List ToolsDataInfo :=
  let r := chain sendData fs.reverse [d]
  (r.1.reverse, r.2)

end ToolsFilter

/-! ### The inputs -/

/-- One message passed to `sendMsgs`: the pointer, what `write()` returns for it, the messages
sent from inside `messageSentReport()`, and the clock when it is recorded. -/
inductive SendReq where
  | mk (msg : Option MsgPtr) (write : Option ToolsDataInfo) (requests : List SendReq) (now : ℕ)

namespace SendReq

def msg : SendReq → Option MsgPtr
  | mk msg _ _ _ => msg

mutual
/-- All pointers in a request. -/
def ptrs : SendReq → List MsgPtr
  | mk msg _ requests _ => msg.toList ++ allPtrs requests
def allPtrs : List SendReq → List MsgPtr
  | [] => []
  | r :: rs => r.ptrs ++ allPtrs rs
end

mutual
/-- All readings of the clock in a request. -/
def clocks : SendReq → List ℕ
  | mk _ _ requests now => now :: allClocks requests
def allClocks : List SendReq → List ℕ
  | [] => []
  | r :: rs => r.clocks ++ allClocks rs
end

end SendReq

/-- One message `read()` returns, the messages sent from inside `messageReceivedReport()`, and the
clock when it is received. -/
structure RecvMsg where
  msg : MsgPtr
  requests : List SendReq
  now : ℕ

/-- `updateMsgTimestamp`: milliseconds of a time in nanoseconds. -/
def milliseconds (timestamp : ℕ) : UInt64 := UInt64.ofNat (timestamp / 1000000)

/-! ### The manager -/

/-- `ToolsMsgMgrImpl`, with the heap of message objects, the data handed to the socket and the
calls of the added-callback (the pointer and the object behind it at that moment). -/
structure MsgMgr (φ α σ : Type) where
  objs : MsgPtr → ToolsMessage φ α
  m_allMsgs : List MsgPtr := []
  m_recvEnabled : Bool := false
  m_socket : Bool := false
  m_protocol : Option (ToolsProtocol φ α) := none
  m_filters : List (ToolsFilter σ) := []
  m_nextMsgNum : ℕ := 1
  socketData : List ToolsDataInfo := []
  added : List (MsgPtr × ToolsMessage φ α) := []
  handed : List (MsgPtr × MsgType) := []

namespace MsgMgr
variable {φ α σ : Type}

/-- `SeqNumber().getFrom`. -/
def seqNumber (s : MsgMgr φ α σ) (p : MsgPtr) : ℕ := (s.objs p).num.getD 0

/-- A change of the object behind a pointer. -/
def modify (s : MsgMgr φ α σ) (p : MsgPtr) (f : ToolsMessage φ α → ToolsMessage φ α) :
    MsgMgr φ α σ :=
  { s with objs := Function.update s.objs p (f (s.objs p)) }

def updateInternalId (s : MsgMgr φ α σ) (p : MsgPtr) : MsgMgr φ α σ :=
  { s.modify p (fun m => { m with num := some s.m_nextMsgNum }) with
    m_nextMsgNum := s.m_nextMsgNum + 1 }

def reportMsgAdded (s : MsgMgr φ α σ) (p : MsgPtr) : MsgMgr φ α σ :=
  { s with added := s.added ++ [(p, s.objs p)] }

def pushBack (s : MsgMgr φ α σ) (p : MsgPtr) : MsgMgr φ α σ :=
  { s with m_allMsgs := s.m_allMsgs ++ [p] }

def hand (s : MsgMgr φ α σ) (p : MsgPtr) (t : MsgType) : MsgMgr φ α σ :=
  { s with handed := s.handed ++ [(p, t)] }

/-- A type and a time on a message. -/
def setTypeAndTime (s : MsgMgr φ α σ) (p : MsgPtr) (t : MsgType) (timestamp : ℕ) : MsgMgr φ α σ :=
  s.modify p fun m => { m with type := some t, timestamp := some (milliseconds timestamp) }

theorem updateInternalId_objs_self (s : MsgMgr φ α σ) (p : MsgPtr) :
    (s.updateInternalId p).objs p = { s.objs p with num := some s.m_nextMsgNum } := by
  simp [updateInternalId, modify]

theorem updateInternalId_objs_of_ne {p q : MsgPtr} (h : q ≠ p) (s : MsgMgr φ α σ) :
    (s.updateInternalId p).objs q = s.objs q := by
  simp [updateInternalId, modify, h]

theorem stamped_objs_self (s : MsgMgr φ α σ) (p : MsgPtr) (t : MsgType) (timestamp : ℕ) :
    ((s.updateInternalId p).setTypeAndTime p t timestamp).objs p = { s.objs p with
      num := some s.m_nextMsgNum, type := some t, timestamp := some (milliseconds timestamp) } := by
  simp [setTypeAndTime, updateInternalId, modify]

theorem stamped_objs_of_ne {p q : MsgPtr} (h : q ≠ p) (s : MsgMgr φ α σ) (t : MsgType)
    (timestamp : ℕ) :
    ((s.updateInternalId p).setTypeAndTime p t timestamp).objs q = s.objs q := by
  simp [setTypeAndTime, updateInternalId, modify, h]

/-! ### Sending -/

/-- `updateMsgGuard` of `sendMsgs`, which runs when a message is done with. -/
def recordSent (s : MsgMgr φ α σ) (p : MsgPtr) (now : ℕ) : MsgMgr φ α σ :=
  (((s.updateInternalId p).setTypeAndTime p MsgType.Sent now).pushBack p).reportMsgAdded p

theorem recordSent_objs_self (s : MsgMgr φ α σ) (p : MsgPtr) (now : ℕ) :
    (s.recordSent p now).objs p = { s.objs p with
      num := some s.m_nextMsgNum, type := some MsgType.Sent,
      timestamp := some (milliseconds now) } :=
  stamped_objs_self s p MsgType.Sent now

theorem recordSent_objs_of_ne {p q : MsgPtr} (h : q ≠ p) (s : MsgMgr φ α σ) (now : ℕ) :
    (s.recordSent p now).objs q = s.objs q :=
  stamped_objs_of_ne h s MsgType.Sent now

/-- `QVariantMap::insert` for each entry. -/
def insertAll (props map : QVariantMap) : QVariantMap :=
  props.foldl (fun m e => QVariantMap.insert e.1 e.2 m) map

/-- A data block is handed to the socket; its extra properties go back to the message. -/
def sendToSocket (p : MsgPtr) (s : MsgMgr φ α σ) (d : ToolsDataInfo) : MsgMgr φ α σ :=
  let s := { s with socketData := s.socketData ++ [d] }
  if d.m_extraProperties.isEmpty then s
  else
    s.modify p fun m =>
      let m := { m with extraInfo := some (insertAll d.m_extraProperties m.getExtraInfo) }
      match s.m_protocol with
      | some P => (P.updateMessage m).1
      | none => m

mutual
/-- The body of the loop of `sendMsgs` for one message. -/
def sendOne : SendReq → MsgMgr φ α σ → MsgMgr φ α σ
  | .mk none _ _ _, s => s
  | .mk (some p) none _ now, s => (s.hand p MsgType.Sent).recordSent p now
  | .mk (some p) (some dataInfo) requests now, s =>
      let s := s.hand p MsgType.Sent
      let r := ToolsFilter.sendChain s.m_filters dataInfo
      let s := { s with m_filters := r.1 }
      if r.2.isEmpty then s.recordSent p now
      else (sendLoop requests (r.2.foldl (sendToSocket p) s)).recordSent p now

/-- The loop of `sendMsgs`, and the successive calls of `sendMsgs` with one message each that
a protocol makes while it is called. -/
def sendLoop : List SendReq → MsgMgr φ α σ → MsgMgr φ α σ
  | [], s => s
  | r :: rs, s => sendLoop rs (sendOne r s)
end

/-- `sendMsgs`. -/
def sendMsgs (s : MsgMgr φ α σ) (msgs : List SendReq) : MsgMgr φ α σ :=
  if msgs.isEmpty || !s.m_socket || s.m_protocol.isNone then s else sendLoop msgs s

/-! ### Receiving -/

/-- The messages `read()` returns for the data that comes out of the filters, the `k`-th call
returning the `k`-th list. -/
def received (s : MsgMgr φ α σ) (dataInfo : ToolsDataInfo) (reads : List (List RecvMsg)) :
    List RecvMsg :=
  (reads.take (ToolsFilter.recvChain s.m_filters dataInfo).2.length).flatten

/-- The loop of `socketDataReceived` for one message. -/
def receiveOne (dataInfo : ToolsDataInfo) (s : MsgMgr φ α σ) (m : RecvMsg) : MsgMgr φ α σ :=
  let timestamp := if dataInfo.m_timestamp ≠ 0 then dataInfo.m_timestamp else m.now
  let s := s.hand m.msg MsgType.Received
  let s := (s.updateInternalId m.msg).setTypeAndTime m.msg MsgType.Received timestamp
  (sendLoop m.requests s).reportMsgAdded m.msg

/-- The messages that arrive: they are numbered and reported one by one and stored at the end. -/
def receiveAll (s : MsgMgr φ α σ) (dataInfo : ToolsDataInfo) (msgs : List RecvMsg) :
    MsgMgr φ α σ :=
  let s := msgs.foldl (receiveOne dataInfo) s
  { s with m_allMsgs := s.m_allMsgs ++ msgs.map RecvMsg.msg }

/-- `socketDataReceived`, for the signal of the manager's own socket. -/
def socketDataReceived (s : MsgMgr φ α σ) (dataInfo : Option ToolsDataInfo)
    (reads : List (List RecvMsg)) : MsgMgr φ α σ :=
  match dataInfo with
  | none => s
  | some dataInfo =>
      if !s.m_socket || !s.m_recvEnabled || s.m_protocol.isNone then s
      else
        let s' := { s with m_filters := (ToolsFilter.recvChain s.m_filters dataInfo).1 }
        if (s.received dataInfo reads).isEmpty then s'
        else s'.receiveAll dataInfo (s.received dataInfo reads)

/-! ### Adding -/

/-- The loop of `addMsgs` for one message. -/
def addOne (reportAdded : Bool) (s : MsgMgr φ α σ) (m : Option MsgPtr × ℕ) : MsgMgr φ α σ :=
  match m with
  | (none, _) => s
  | (some p, now) =>
      if (s.objs p).getType = MsgType.Invalid then s
      else
        let s := s.hand p (s.objs p).getType
        let s :=
          if (s.objs p).getTimestamp = 0 then
            s.modify p fun m => { m with timestamp := some (milliseconds now) }
          else s
        let s := s.updateInternalId p
        let s := if reportAdded then s.reportMsgAdded p else s
        s.pushBack p

/-- `addMsgs`; each pointer comes with the clock when it is added. -/
def addMsgs (s : MsgMgr φ α σ) (msgs : List (Option MsgPtr × ℕ)) (reportAdded : Bool) :
    MsgMgr φ α σ :=
  msgs.foldl (addOne reportAdded) s

/-! ### Deleting -/

/-- The loop of `deleteMsgs`: stored messages are skipped (and erased with the next batch) while
they match the list, and kept where they do not. -/
def deleteLoop (num : MsgPtr → ℕ) : List MsgPtr → List MsgPtr → List MsgPtr
  | [], stored => stored
  | _ :: _, [] => []
  | l :: ls, p :: stored =>
      if num p = num l then deleteLoop num ls stored else p :: deleteLoop num (l :: ls) stored

def deleteMsgs (s : MsgMgr φ α σ) (msgs : List MsgPtr) : MsgMgr φ α σ :=
  { s with m_allMsgs := deleteLoop s.seqNumber msgs s.m_allMsgs }

/-- `deleteMsg`: the first stored message of the same number. -/
def deleteMsg (s : MsgMgr φ α σ) (msg : MsgPtr) : MsgMgr φ α σ :=
  { s with m_allMsgs := s.m_allMsgs.eraseP fun p => s.seqNumber p == s.seqNumber msg }

def deleteAllMsgs (s : MsgMgr φ α σ) : MsgMgr φ α σ := { s with m_allMsgs := [] }

/-! ### Setting up -/

/-- `clear`; the store stays. -/
def clear (s : MsgMgr φ α σ) : MsgMgr φ α σ :=
  { s with m_socket := false, m_protocol := none, m_filters := [] }

/-- `setSocket`, `addFilter` for each filter and `setProtocol`. -/
def setup (s : MsgMgr φ α σ) (filters : List (ToolsFilter σ))
    (protocol : Option (ToolsProtocol φ α)) : MsgMgr φ α σ :=
  { s with m_socket := true, m_filters := s.m_filters ++ filters, m_protocol := protocol }

end MsgMgr

end CcToolsQt
