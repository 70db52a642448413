import Rill.Kernel.Content
import Rill.Lib.Runs

/-!
# Restrictive wins

What two retention policies combined let into a timeline, against what each of
them does.
-/

namespace Rill.Kernel

open Lib

namespace RetentionPolicy

/-- The policy takes in an event that brings the timeline to `n` bytes. -/
def Allows (p : RetentionPolicy) (n : UInt64) : Prop := p.mode ≠ .disabled ∧ n ≤ p.cap

theorem le_min_iff {n a b : UInt64} : n ≤ min a b ↔ n ≤ a ∧ n ≤ b := by
  have hmin : min a b = if a ≤ b then a else b := rfl
  rw [hmin]
  split
  case isTrue h => exact ⟨fun hn => ⟨hn, UInt64.le_trans hn h⟩, fun hn => hn.1⟩
  case isFalse h =>
    exact ⟨fun hn => ⟨UInt64.le_trans hn (UInt64.le_of_lt (UInt64.not_le.mp h)), hn⟩, fun hn => hn.2⟩

@[simp] theorem le_cap_min (mode : RetentionMode) (n a b : UInt64) :
    n ≤ cap ⟨mode, some (min a b)⟩ ↔ n ≤ a ∧ n ≤ b := le_min_iff

/-- A memory-only policy stands as it is beside a durable one, whose limit goes. -/
theorem allows_restrictiveWins (p q : RetentionPolicy) (n : UInt64) :
    (p.restrictiveWins q).Allows n ↔ match p.mode, q.mode with
      | .disabled, _ | _, .disabled => False
      | .memoryOnly, .durable => n ≤ p.cap
      | .durable, .memoryOnly => n ≤ q.cap
      | .memoryOnly, .memoryOnly | .durable, .durable => n ≤ p.cap ∧ n ≤ q.cap := by
  obtain ⟨mode, limit⟩ := p
  obtain ⟨mode', limit'⟩ := q
  cases mode <;> cases mode' <;> simp [restrictiveWins, Allows]

theorem allows_comm (p q : RetentionPolicy) (n : UInt64) :
    (p.restrictiveWins q).Allows n ↔ (q.restrictiveWins p).Allows n := by
  rw [allows_restrictiveWins, allows_restrictiveWins]
  cases p.mode <;> cases q.mode <;> simp [and_comm]

theorem allows_assoc (p q r : RetentionPolicy) (n : UInt64) :
    ((p.restrictiveWins q).restrictiveWins r).Allows n ↔
      (p.restrictiveWins (q.restrictiveWins r)).Allows n := by
  obtain ⟨mode, limit⟩ := p
  obtain ⟨mode', limit'⟩ := q
  obtain ⟨mode'', limit''⟩ := r
  cases mode <;> cases mode' <;> cases mode'' <;> simp [restrictiveWins, Allows, and_assoc]

/-- The policies have one mode, or one of them is disabled, or the limit of the
memory-only one is no higher than the limit of the durable one. -/
def Nested (p q : RetentionPolicy) : Prop :=
  (p.mode = .memoryOnly → q.mode = .durable → p.cap ≤ q.cap) ∧
    (p.mode = .durable → q.mode = .memoryOnly → q.cap ≤ p.cap)

theorem allows_both {p q : RetentionPolicy} (h : Nested p q) {n : UInt64}
    (hn : (p.restrictiveWins q).Allows n) : p.Allows n ∧ q.Allows n := by
  obtain ⟨hpq, hqp⟩ := h
  rw [allows_restrictiveWins] at hn
  unfold Allows
  cases hp : p.mode <;> cases hq : q.mode <;> simp only [hp, hq] at hn <;> simp
  case memoryOnly.memoryOnly => exact hn
  case memoryOnly.durable => exact ⟨hn, UInt64.le_trans hn (hpq hp hq)⟩
  case durable.memoryOnly => exact ⟨UInt64.le_trans hn (hqp hp hq), hn⟩
  case durable.durable => exact hn

end RetentionPolicy

namespace ContentTimeline

open RetentionPolicy

/-- Whether the event goes into the timeline under the policy. -/
def admits (t : ContentTimeline) (policy : RetentionPolicy) (event : ContentEvent) : Bool :=
  ((appendWithPolicy policy event).exec t).1.toBool

theorem checkUnder_eq_ok {t : ContentTimeline} {p : RetentionPolicy} {e : ContentEvent} :
    t.checkUnder p e = .ok () ↔ p.Allows (saturatingAdd t.bytesUsed e.sizeHint) := by
  unfold checkUnder Allows allowsCapture cap
  rw [guard_eq_ok]
  refine and_congr (by simp) ?_
  cases p.limitBytes with
  | none => exact iff_of_true rfl (UInt64.le_iff_toNat_le.mpr (Nat.le_pred_of_lt (UInt64.toNat_lt _)))
  | some limit => simp [last_guard_eq_ok]

/-- An event that a policy allows and the timeline has a place for goes in, and
any other leaves it as it was. -/
theorem appendWithPolicy_cases (t : ContentTimeline) (p : RetentionPolicy) (e : ContentEvent) :
    (p.Allows (saturatingAdd t.bytesUsed e.sizeHint) ∧ t.Fits e ∧
        (appendWithPolicy p e).exec t = (.ok (), t.push e)) ∨
      ∃ err, ¬ (p.Allows (saturatingAdd t.bytesUsed e.sizeHint) ∧ t.Fits e) ∧
        (appendWithPolicy p e).exec t = (.error err, t) := by
  have hrun : (appendWithPolicy p e).exec t =
      (Op.lift (t.checkUnder p e) >>= fun _ => append e).exec t := Op.exec_get_bind _ _
  rw [hrun]
  cases hcheck : t.checkUnder p e with
  | error err =>
    refine .inr ⟨err, fun h => ?_, rfl⟩
    rw [checkUnder_eq_ok.mpr h.1] at hcheck
    cases hcheck
  | ok _ =>
    obtain ⟨hfits, h⟩ | ⟨err, hfits, h⟩ := append_cases t e
    · exact .inl ⟨checkUnder_eq_ok.mp hcheck, hfits, h⟩
    · exact .inr ⟨err, fun hboth => hfits hboth.2, h⟩

theorem admits_iff (t : ContentTimeline) (p : RetentionPolicy) (e : ContentEvent) :
    t.admits p e = true ↔ p.Allows (saturatingAdd t.bytesUsed e.sizeHint) ∧ t.Fits e := by
  unfold admits
  obtain ⟨hallows, hfits, h⟩ | ⟨err, hnot, h⟩ := t.appendWithPolicy_cases p e
  · simp [h, hallows, hfits, Except.toBool]
  · simp [h, hnot, Except.toBool]

theorem appendWithPolicy_state (t : ContentTimeline) (p : RetentionPolicy) (e : ContentEvent) :
    ((appendWithPolicy p e).exec t).2 = if t.admits p e then t.push e else t := by
  unfold admits
  obtain ⟨-, -, h⟩ | ⟨err, -, h⟩ := t.appendWithPolicy_cases p e
  · rw [h]
    rfl
  · rw [h]
    rfl

/-- The events appended under one policy, each let in or refused. -/
def outcomes (policy : RetentionPolicy) : ContentTimeline → List ContentEvent → List Bool :=
  along (fun t e => ((appendWithPolicy policy e).exec t).2) fun t e => [t.admits policy e]

theorem outcomes_congr {p q : RetentionPolicy} (h : ∀ n, p.Allows n ↔ q.Allows n) :
    outcomes p = outcomes q := by
  have hadmits : ∀ t e, admits t p e = admits t q e := by
    intro t e
    rw [Bool.eq_iff_iff, admits_iff, admits_iff, h]
  have hnext : (fun (t : ContentTimeline) e => ((appendWithPolicy p e).exec t).2) =
      fun t e => ((appendWithPolicy q e).exec t).2 := by
    funext t e
    rw [appendWithPolicy_state, appendWithPolicy_state, hadmits]
  unfold outcomes
  simp only [hnext, hadmits]

def sized (n : UInt64) : ContentEvent := .new "" .lifecycleEvent 0 none (some (0, n))

theorem saturatingAdd_zero (n : UInt64) : saturatingAdd 0 n = n := by
  rw [← UInt64.toNat_inj, toNat_saturatingAdd]
  have hn : n.toNat < 18446744073709551616 := n.toNat_lt
  simp only [u64Max, UInt64.toNat_zero]
  omega

theorem sizeHint_sized {n : UInt64} (h : 0 < n) : (sized n).sizeHint = n := by
  have hmax : max n 1 = n := by
    have hone : (1 : UInt64) ≤ n := by
      rw [UInt64.le_iff_toNat_le]
      exact UInt64.lt_iff_toNat_lt.mp h
    have hdef : max n 1 = if n ≤ 1 then 1 else n := rfl
    rw [hdef]
    split
    case isTrue hle => exact UInt64.le_antisymm hone hle
    case isFalse => rfl
  have hhint : (sized n).sizeHint = saturatingAdd 0 (max (saturatingSub n 0) 1) := rfl
  have hsub : saturatingSub n 0 = n := by simp [saturatingSub]
  rw [hhint, hsub, hmax, saturatingAdd_zero]

theorem admits_sized (p : RetentionPolicy) {n : UInt64} (h : 0 < n) :
    new.admits p (sized n) = true ↔ p.Allows n := by
  have hfits : new.Fits (sized n) := ⟨nofun, Finset.notMem_empty _, nofun⟩
  have hbytes : new.bytesUsed = 0 := rfl
  rw [admits_iff, sizeHint_sized h, hbytes, saturatingAdd_zero]
  exact and_iff_left hfits

def appendAll (policy : RetentionPolicy) (t : ContentTimeline) (es : List ContentEvent) :
    ContentTimeline :=
  deliverAll (appendWithPolicy policy) t es

/-- All that the combined policy lets in, wherever in a run, either would let in there. -/
def Restricts (p q : RetentionPolicy) : Prop :=
  ∀ (t : ContentTimeline) (es : List ContentEvent) (e : ContentEvent),
    (appendAll (p.restrictiveWins q) t es).admits (p.restrictiveWins q) e = true →
      (appendAll (p.restrictiveWins q) t es).admits p e = true ∧
        (appendAll (p.restrictiveWins q) t es).admits q e = true

theorem nested_of_restricts {p q : RetentionPolicy} (h : Restricts p q) : Nested p q := by
  have hsized : ∀ n : UInt64, 0 < n → (p.restrictiveWins q).Allows n → p.Allows n ∧ q.Allows n := by
    intro n hn hallows
    have hboth := h new [] (sized n) ((admits_sized _ hn).mpr hallows)
    exact ⟨(admits_sized p hn).mp hboth.1, (admits_sized q hn).mp hboth.2⟩
  refine ⟨fun hp hq => ?_, fun hp hq => ?_⟩
  · by_cases hzero : 0 < p.cap
    · refine (hsized p.cap hzero ?_).2.2
      rw [allows_restrictiveWins, hp, hq]
      exact UInt64.le_refl _
    · exact UInt64.le_trans (UInt64.not_lt.mp hzero) UInt64.zero_le
  · by_cases hzero : 0 < q.cap
    · refine (hsized q.cap hzero ?_).1.2
      rw [allows_restrictiveWins, hp, hq]
      exact UInt64.le_refl _
    · exact UInt64.le_trans (UInt64.not_lt.mp hzero) UInt64.zero_le

/-- The order and the grouping of policies never matter to what they let in, and the
combination is as strict as both just where the two are nested. -/
theorem restrictiveWins_iff (p q : RetentionPolicy) :
    (Restricts p q ∧ outcomes (p.restrictiveWins q) = outcomes (q.restrictiveWins p) ∧
        ∀ r, outcomes ((p.restrictiveWins q).restrictiveWins r) =
          outcomes (p.restrictiveWins (q.restrictiveWins r))) ↔ Nested p q := by
  constructor
  · exact fun h => nested_of_restricts h.1
  · intro h
    refine ⟨fun t es e hadmits => ?_, outcomes_congr (allows_comm p q),
      fun r => outcomes_congr (allows_assoc p q r)⟩
    obtain ⟨hallows, hfits⟩ := (admits_iff _ _ e).mp hadmits
    obtain ⟨hp, hq⟩ := allows_both h hallows
    exact ⟨(admits_iff _ p e).mpr ⟨hp, hfits⟩, (admits_iff _ q e).mpr ⟨hq, hfits⟩⟩

/-- Ten bytes of durable capture at most, and a hundred in memory: fifty go in. -/
theorem restrictiveWins_widens :
    ¬ Restricts (.memoryOnly 100) (.durable (some 10)) ∧
      new.admits (restrictiveWins (.memoryOnly 100) (.durable (some 10))) (sized 50) = true ∧
      new.admits (.durable (some 10)) (sized 50) = false := by
  refine ⟨fun h => ?_, by decide, by decide⟩
  have hnested := (nested_of_restricts h).1 rfl rfl
  exact absurd hnested (by decide)

end ContentTimeline

end Rill.Kernel
