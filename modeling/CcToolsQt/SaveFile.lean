import CcToolsQt.MsgFile
import CcToolsQt.Lib.Files

/-! # Saving to a file

`ToolsMsgFileMgr::save` and `ToolsConfigMgr::saveConfig` write the document to a temporary file
next to the target, remove the target and rename the temporary file to it.  The result of the
write is not looked at, and the target is gone when the renaming fails.

* `saveDocument_of_not_reached`, `saveDocument_of_reached`: the target after the body the two
  functions share.
* `save_atomic_iff`: on which outcomes of the calls the target is replaced all or nothing. -/

namespace CcToolsQt

open Files

/-- How the calls of one saving end. -/
structure FileCalls where
  /-- `open(WriteOnly)` of the temporary file -/
  opened : Bool
  /-- how many bytes of the document reach the file: `write` may be short or fail -/
  written : ℕ
  /-- `remove` of the target -/
  removed : Bool
  /-- `remove` of the temporary file -/
  cleaned : Bool
  /-- `rename` of the temporary file -/
  renamed : Bool

/-- `filename.append(".tmp")`. -/
def appendTmp (filename : QString) : QString := filename ++ ['.', 't', 'm', 'p']

theorem length_appendTmp (filename : QString) : filename.length < (appendTmp filename).length := by
  simp [appendTmp]

/-- The name of the temporary file: `.tmp` is appended until there is no such file. -/
def filenameTmp (disk : Disk QString UInt8) (filename : QString) : QString :=
  disk.freeName length_appendTmp filename

/-- The body of the two functions: the disk afterwards, and the value returned.  The engine keeps
only a prefix of a document that does not fit; a failing `rename` leaves both names alone. -/
def saveDocument (calls : FileCalls) (disk : Disk QString UInt8) (filename : QString)
    (data : DataSeq) : Disk QString UInt8 × Bool :=
  let tmp := filenameTmp disk filename
  if !calls.opened then (disk, false)
  else
    let disk := disk.put tmp (data.take calls.written)
    let old := disk.inUse filename
    if old && !calls.removed then
      (if calls.cleaned then disk.remove tmp else disk, false)
    else
      let disk := if old then disk.remove filename else disk
      if !calls.renamed then (disk, false) else (disk.rename tmp filename, true)

/-- The member of `ToolsMsgFileMgr`. -/
structure ToolsMsgFileMgr where
  m_lastFile : QString

/-- The member of `ToolsConfigMgr`. -/
structure ToolsConfigMgr where
  m_lastConfigFile : QString

/-- What saving leaves behind: the file manager, the disk and the value returned. -/
structure Saving (Mgr : Type) where
  mgr : Mgr
  disk : Disk QString UInt8
  ok : Bool

namespace ToolsMsgFileMgr
variable {φ α : Type}

def getLastFile (mgr : ToolsMsgFileMgr) : QString := mgr.m_lastFile

/-- `ToolsMsgFileMgr::save`; the document is the one of `ToolsMsgFileMgr.save`. -/
def saveFile (P : ToolsProtocol φ α) (Q : QtFiles DataSeq) (calls : FileCalls)
    (disk : Disk QString UInt8) (mgr : ToolsMsgFileMgr) (type : FileType) (filename : QString)
    (msgs : List (ToolsMessage φ α)) : Saving ToolsMsgFileMgr :=
  let (disk, ok) := saveDocument calls disk filename (save P Q type msgs)
  { mgr := if ok then { m_lastFile := filename } else mgr, disk, ok }

theorem saveFile_getLastFile (P : ToolsProtocol φ α) (Q : QtFiles DataSeq) (calls : FileCalls)
    (disk : Disk QString UInt8) (mgr : ToolsMsgFileMgr) (type : FileType) (filename : QString)
    (msgs : List (ToolsMessage φ α)) :
    let s := mgr.saveFile P Q calls disk type filename msgs
    s.mgr.getLastFile = if s.ok then filename else mgr.getLastFile := by
  unfold saveFile
  dsimp only
  split <;> rfl

end ToolsMsgFileMgr

namespace ToolsConfigMgr

def getLastFile (mgr : ToolsConfigMgr) : QString := mgr.m_lastConfigFile

/-- `ToolsConfigMgr::saveConfig`, with `updateAsLast` set when it is not passed; `toJson` writes the
document of an object. -/
def saveConfig (toJson : QVariantMap → DataSeq) (calls : FileCalls) (disk : Disk QString UInt8)
    (mgr : ToolsConfigMgr) (filename : QString) (config : QVariantMap)
    (updateAsLast : Bool) : Saving ToolsConfigMgr :=
  let (disk, ok) := saveDocument calls disk filename (toJson config)
  { mgr := if ok && updateAsLast then { m_lastConfigFile := filename } else mgr, disk, ok }

theorem saveConfig_getLastFile (toJson : QVariantMap → DataSeq) (calls : FileCalls)
    (disk : Disk QString UInt8) (mgr : ToolsConfigMgr) (filename : QString) (config : QVariantMap)
    (updateAsLast : Bool) :
    let s := mgr.saveConfig toJson calls disk filename config updateAsLast
    s.mgr.getLastFile = if s.ok && updateAsLast then filename else mgr.getLastFile := by
  unfold saveConfig
  dsimp only
  split <;> rfl

end ToolsConfigMgr

/-! ### The body the two functions share -/

/-- The calls get as far as the renaming: the temporary file is open, and there is no target or it
has been removed. -/
def FileCalls.Reached (calls : FileCalls) (disk : Disk QString UInt8) (filename : QString) : Prop :=
  calls.opened = true ∧ (disk.inUse filename = true → calls.removed = true)

/-- Once the renaming is reached, either everything was written and renamed, or the renaming
failed and there was no target before. -/
def FileCalls.Safe (calls : FileCalls) (disk : Disk QString UInt8) (filename : QString)
    (data : DataSeq) : Prop :=
  calls.Reached disk filename →
    (calls.renamed = true ∧ data.length ≤ calls.written) ∨
      (calls.renamed = false ∧ disk.inUse filename = false)

section
variable {calls : FileCalls} {disk : Disk QString UInt8} {filename : QString} {data : DataSeq}

theorem filenameTmp_ne : filenameTmp disk filename ≠ filename :=
  Disk.freeName_ne length_appendTmp disk filename

theorem inUse_put_tmp (b : DataSeq) :
    (disk.put (filenameTmp disk filename) b).inUse filename = disk.inUse filename := by
  unfold Disk.inUse
  rw [Disk.content_put_of_ne filenameTmp_ne.symm]

/-- The calls end before the renaming: the target is left as it was. -/
theorem saveDocument_of_not_reached (data : DataSeq) (h : ¬ calls.Reached disk filename) :
    (saveDocument calls disk filename data).2 = false ∧
      (saveDocument calls disk filename data).1.content filename = disk.content filename := by
  have hne : filename ≠ filenameTmp disk filename := filenameTmp_ne.symm
  unfold saveDocument
  dsimp only
  rw [inUse_put_tmp]
  by_cases hopen : calls.opened = true
  · have hfail : disk.inUse filename = true ∧ calls.removed = false := by
      by_contra hcon
      refine h ⟨hopen, fun huse => ?_⟩
      by_contra hrem
      exact hcon ⟨huse, by simpa using hrem⟩
    rw [hopen, hfail.1, hfail.2, if_neg (by decide), if_pos (by decide)]
    refine ⟨rfl, ?_⟩
    dsimp only
    split
    · rw [Disk.content_remove_of_ne hne, Disk.content_put_of_ne hne]
    · rw [Disk.content_put_of_ne hne]
  · have hclosed : calls.opened = false := by simpa using hopen
    rw [hclosed]
    exact ⟨rfl, rfl⟩

/-- The renaming is reached: the target holds what was written, or is gone. -/
theorem saveDocument_of_reached (data : DataSeq) (h : calls.Reached disk filename) :
    (saveDocument calls disk filename data).2 = calls.renamed ∧
      (saveDocument calls disk filename data).1.content filename =
        if calls.renamed then some (data.take calls.written) else none := by
  obtain ⟨hopen, hrem⟩ := h
  have hne : filename ≠ filenameTmp disk filename := filenameTmp_ne.symm
  have hgo : (disk.inUse filename && !calls.removed) = false := by
    cases huse : disk.inUse filename with
    | true => simp [hrem huse]
    | false => rfl
  unfold saveDocument
  dsimp only
  rw [inUse_put_tmp, hopen, hgo, if_neg (by decide), if_neg (by decide)]
  set written := disk.put (filenameTmp disk filename) (data.take calls.written) with hwritten
  set cleared := if disk.inUse filename = true then written.remove filename else written
    with hcleared
  have htmp : cleared.content (filenameTmp disk filename) = some (data.take calls.written) := by
    rw [hcleared]
    split
    · rw [Disk.content_remove_of_ne filenameTmp_ne, hwritten, Disk.content_put]
    · rw [hwritten, Disk.content_put]
  have hgone : cleared.content filename = none := by
    rw [hcleared]
    split
    · exact Disk.content_remove
    · rw [hwritten, Disk.content_put_of_ne hne, Disk.content_eq_none]
      simpa using ‹¬ disk.inUse filename = true›
  cases calls.renamed with
  | true => exact ⟨rfl, Disk.content_rename htmp⟩
  | false => exact ⟨rfl, hgone⟩

/-- The shared body replaces the target all or nothing exactly on safe calls. -/
theorem saveDocument_replaced_iff :
    Replaced filename data (saveDocument calls disk filename data).2 disk
        (saveDocument calls disk filename data).1 ↔
      calls.Safe disk filename data := by
  by_cases hreached : calls.Reached disk filename
  · obtain ⟨hok, hcontent⟩ := saveDocument_of_reached data hreached
    unfold FileCalls.Safe
    rw [hok]
    cases hren : calls.renamed with
    | true =>
        rw [Replaced.succeeded_iff, hcontent, hren, if_pos rfl, Option.some_inj,
          List.take_eq_self_iff]
        simp [hreached]
    | false =>
        rw [Replaced.failed_iff, hcontent, hren, if_neg (by decide), eq_comm,
          Disk.content_eq_none]
        simp [hreached]
  · obtain ⟨hok, hcontent⟩ := saveDocument_of_not_reached data hreached
    rw [hok, Replaced.failed_iff]
    exact iff_of_true hcontent fun h => absurd h hreached

end

/-! ### The two functions -/

/-- Saving is **all or nothing**: the target is replaced as a whole or left alone, and only a
successful saving changes the last file. -/
structure AllOrNothing {Mgr : Type} (getLastFile : Mgr → QString) (filename : QString)
    (data : DataSeq) (disk : Disk QString UInt8) (mgr : Mgr) (s : Saving Mgr) : Prop where
  replaced : Replaced filename data s.ok disk s.disk
  last : s.ok = false → getLastFile s.mgr = getLastFile mgr

section
variable {φ α : Type} (P : ToolsProtocol φ α) (Q : QtFiles DataSeq) (calls : FileCalls)
variable (disk : Disk QString UInt8)

/-- **Saving is all or nothing** if and only if the calls are safe, for messages and for
configurations. -/
theorem save_atomic_iff (toJson : QVariantMap → DataSeq) (filename : QString) :
    (∀ (mgr : ToolsMsgFileMgr) (type : ToolsMsgFileMgr.FileType) (msgs : List (ToolsMessage φ α)),
      AllOrNothing ToolsMsgFileMgr.getLastFile filename (ToolsMsgFileMgr.save P Q type msgs) disk
          mgr (mgr.saveFile P Q calls disk type filename msgs) ↔
        calls.Safe disk filename (ToolsMsgFileMgr.save P Q type msgs)) ∧
    ∀ (mgr : ToolsConfigMgr) (config : QVariantMap) (updateAsLast : Bool),
      AllOrNothing ToolsConfigMgr.getLastFile filename (toJson config) disk mgr
          (mgr.saveConfig toJson calls disk filename config updateAsLast) ↔
        calls.Safe disk filename (toJson config) := by
  constructor
  · intro mgr type msgs
    rw [← saveDocument_replaced_iff]
    constructor
    · intro h
      exact h.replaced
    · intro h
      refine ⟨h, fun hfail => ?_⟩
      rw [ToolsMsgFileMgr.saveFile_getLastFile, hfail, if_neg (by decide)]
  · intro mgr config updateAsLast
    rw [← saveDocument_replaced_iff]
    constructor
    · intro h
      exact h.replaced
    · intro h
      refine ⟨h, fun hfail => ?_⟩
      rw [ToolsConfigMgr.saveConfig_getLastFile, hfail, Bool.false_and, if_neg (by decide)]

end

/-- A configuration file from before. -/
def oldDisk : Disk QString UInt8 :=
  Disk.put { names := [], content := fun _ => none, listed := nofun } ['a'] [123, 125]

/-- What `toJson` writes of an object without entries. -/
def emptyObject : DataSeq := [123, 10, 125, 10]

/-- All calls succeed. -/
def allWell : FileCalls :=
  { opened := true, written := 4, removed := true, cleaned := true, renamed := true }

/-- The old file is gone when the renaming fails, and a short write counts as a success. -/
theorem saveConfig_not_atomic :
    ¬ AllOrNothing ToolsConfigMgr.getLastFile ['a'] emptyObject oldDisk { m_lastConfigFile := [] }
        (ToolsConfigMgr.saveConfig (fun _ => emptyObject) { allWell with renamed := false }
          oldDisk { m_lastConfigFile := [] } ['a'] [] true) ∧
      ¬ AllOrNothing ToolsConfigMgr.getLastFile ['a'] emptyObject oldDisk { m_lastConfigFile := [] }
        (ToolsConfigMgr.saveConfig (fun _ => emptyObject) { allWell with written := 1 }
          oldDisk { m_lastConfigFile := [] } ['a'] [] true) := by
  have huse : oldDisk.inUse ['a'] = true := rfl
  constructor
  · intro h
    have hsafe : { allWell with renamed := false }.Safe oldDisk ['a'] emptyObject :=
      saveDocument_replaced_iff.mp h.replaced
    rcases hsafe ⟨rfl, fun _ => rfl⟩ with ⟨hren, -⟩ | ⟨-, hnew⟩
    · cases hren
    · cases huse.symm.trans hnew
  · intro h
    have hsafe : { allWell with written := 1 }.Safe oldDisk ['a'] emptyObject :=
      saveDocument_replaced_iff.mp h.replaced
    rcases hsafe ⟨rfl, fun _ => rfl⟩ with ⟨-, hlen⟩ | ⟨hren, -⟩
    · exact absurd hlen (by decide)
    · cases hren

end CcToolsQt
