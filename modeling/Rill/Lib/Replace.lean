import Mathlib.Data.List.Basic
import Mathlib.Data.List.Infix

/-!
# Replacing in turn

A literal is replaced wherever it occurs, from the left; several of them one after the other.
What stands at the end was in the text when its own turn was over: no turn leaves its
literal in what it keeps, so it meets a place where another was cut out.
-/

namespace Lib

variable {α : Type}

-- ---------------------------------------------------------------------------
-- Pieces
-- ---------------------------------------------------------------------------

def consHead (c : α) : List (List α) → List (List α)
  | [] => [[c]]
  | w :: ws => (c :: w) :: ws

section
variable [DecidableEq α]

/-- What is kept of the text where `p`, not empty, is cut out of it wherever it occurs from the
left; `skip` elements still belong to the occurrence in front. -/
def piecesFrom (p : List α) : Nat → List α → List (List α)
  | _, [] => [[]]
  | skip + 1, _ :: l => piecesFrom p skip l
  | 0, c :: l =>
    if p.isPrefixOf (c :: l) then [] :: piecesFrom p (p.length - 1) l
    else consHead c (piecesFrom p 0 l)

/-- An empty `p` is before each element and at the end. -/
def pieces (p l : List α) : List (List α) :=
  if p.isEmpty then [] :: (l.map fun c => [c]) ++ [[]] else piecesFrom p 0 l

def replace (p r l : List α) : List α := r.intercalate (pieces p l)

end

theorem head?_consHead (c : α) (ws : List (List α)) :
    (consHead c ws).head? = some (c :: ws.head?.getD []) := by
  cases ws <;> rfl

theorem intercalate_consHead (r : List α) (c : α) {ws : List (List α)} (h : ws ≠ []) :
    r.intercalate (consHead c ws) = c :: r.intercalate ws := by
  cases ws with
  | nil => exact absurd rfl h
  | cons w ws =>
    cases ws with
    | nil => simp [consHead]
    | cons v ws => simp [consHead, List.intercalate_cons_cons]

section
variable [DecidableEq α] {p : List α}

theorem piecesFrom_ne_nil (p : List α) (skip : Nat) (l : List α) : piecesFrom p skip l ≠ [] := by
  induction l generalizing skip with
  | nil => cases skip <;> nofun
  | cons c l ih =>
    cases skip with
    | succ skip => exact ih skip
    | zero =>
      rw [piecesFrom]
      split
      · nofun
      · cases h : piecesFrom p 0 l <;> nofun

theorem piecesFrom_drop (p : List α) (skip : Nat) (l : List α) :
    piecesFrom p skip l = piecesFrom p 0 (l.drop skip) := by
  induction l generalizing skip with
  | nil => cases skip <;> rfl
  | cons c l ih =>
    cases skip with
    | zero => rfl
    | succ skip => exact ih skip

/-- The pieces with `p` between them are the text. -/
theorem intercalate_piecesFrom (hp : p ≠ []) (l : List α) : p.intercalate (piecesFrom p 0 l) = l := by
  induction hn : l.length using Nat.strong_induction_on generalizing l with
  | _ n ih =>
    cases l with
    | nil => simp [piecesFrom]
    | cons c l =>
      rw [piecesFrom]
      split
      case isTrue hstart =>
        obtain ⟨rest, hrest⟩ := List.isPrefixOf_iff_prefix.mp hstart
        have hpos := List.length_pos_iff.mpr hp
        have hdrop : l.drop (p.length - 1) = rest := by
          have h := congrArg (List.drop p.length) hrest
          rw [List.drop_left] at h
          obtain ⟨k, hk⟩ : ∃ k, p.length = k + 1 := ⟨p.length - 1, by omega⟩
          rw [hk, List.drop_succ_cons] at h
          rw [hk, Nat.add_sub_cancel]
          exact h.symm
        have hlen : rest.length < n := by
          have h := congrArg List.length hrest
          rw [List.length_append] at h
          omega
        rw [piecesFrom_drop, hdrop, List.intercalate_cons_of_ne_nil (piecesFrom_ne_nil p 0 rest),
          ih rest.length hlen rest rfl, ← hrest]
        rfl
      case isFalse =>
        rw [intercalate_consHead p c (piecesFrom_ne_nil p 0 l), ih l.length (by simp [← hn]) l rfl]

theorem head?_prefix_piecesFrom (p l : List α) : (piecesFrom p 0 l).head?.getD [] <+: l := by
  induction l with
  | nil => exact List.prefix_refl []
  | cons c l ih =>
    rw [piecesFrom]
    split
    · exact List.nil_prefix
    · rw [head?_consHead, Option.getD_some, List.cons_prefix_cons]
      exact ⟨rfl, ih⟩

theorem not_infix_piecesFrom (hp : p ≠ []) (skip : Nat) (l : List α) :
    ∀ w ∈ piecesFrom p skip l, ¬ p <:+: w := by
  induction l generalizing skip with
  | nil =>
    intro w hw
    have hnil : w = [] := by cases skip <;> exact List.mem_singleton.mp hw
    rw [hnil, List.infix_nil]
    exact hp
  | cons c l ih =>
    cases skip with
    | succ skip => exact ih skip
    | zero =>
      rw [piecesFrom]
      split
      case isTrue =>
        intro w hw
        rcases List.mem_cons.mp hw with rfl | hw
        · rw [List.infix_nil]
          exact hp
        · exact ih _ w hw
      case isFalse hstart =>
        have hfirst := head?_prefix_piecesFrom p l
        have ih := ih 0
        cases hws : piecesFrom p 0 l with
        | nil => exact absurd hws (piecesFrom_ne_nil p 0 l)
        | cons v ws =>
          rw [hws, List.head?_cons, Option.getD_some] at hfirst
          rw [hws] at ih
          intro w hw
          rcases List.mem_cons.mp hw with rfl | hw
          · rw [List.infix_cons_iff]
            rintro (h | h)
            · exact hstart (List.isPrefixOf_iff_prefix.mpr
                (h.trans (List.cons_prefix_cons.mpr ⟨rfl, hfirst⟩)))
            · exact ih v List.mem_cons_self h
          · exact ih w (List.mem_cons_of_mem v hw)

theorem pieces_eq (hp : p ≠ []) (l : List α) : pieces p l = piecesFrom p 0 l := by
  rw [pieces, if_neg]
  simpa using hp

theorem intercalate_pieces (hp : p ≠ []) (l : List α) : p.intercalate (pieces p l) = l := by
  rw [pieces_eq hp, intercalate_piecesFrom hp]

theorem not_infix_of_mem_pieces (hp : p ≠ []) {l w : List α} (hw : w ∈ pieces p l) : ¬ p <:+: w := by
  rw [pieces_eq hp] at hw
  exact not_infix_piecesFrom hp 0 l w hw

theorem pieces_eq_singleton (hp : p ≠ []) {l : List α} (h : ¬ p <:+: l) : pieces p l = [l] := by
  have hjoin := intercalate_pieces hp l
  cases hws : pieces p l with
  | nil =>
    rw [pieces_eq hp] at hws
    exact absurd hws (piecesFrom_ne_nil p 0 l)
  | cons w ws =>
    cases ws with
    | nil =>
      rw [hws, List.intercalate_singleton] at hjoin
      rw [hjoin]
    | cons v ws =>
      rw [hws, List.intercalate_cons_cons] at hjoin
      exact absurd ⟨w, p.intercalate (v :: ws), by rw [← hjoin, List.append_assoc]⟩ h

/-- A text is in more than one piece when the literal occurs in it. -/
theorem one_lt_length_pieces_iff (hp : p ≠ []) (l : List α) : 1 < (pieces p l).length ↔ p <:+: l := by
  constructor
  · intro hlt
    by_contra h
    rw [pieces_eq_singleton hp h] at hlt
    exact Nat.lt_irrefl 1 hlt
  · intro h
    have hjoin := intercalate_pieces hp l
    cases hws : pieces p l with
    | nil =>
      rw [pieces_eq hp] at hws
      exact absurd hws (piecesFrom_ne_nil p 0 l)
    | cons w ws =>
      cases ws with
      | nil =>
        rw [hws, List.intercalate_singleton] at hjoin
        exact absurd h (hjoin ▸ not_infix_of_mem_pieces hp (hws ▸ List.mem_cons_self))
      | cons v ws => simp

end

-- ---------------------------------------------------------------------------
-- Places
-- ---------------------------------------------------------------------------

structure Place (q : List α) (ws : List (List α)) where
  front : List (List α)
  left : List α
  right : List α
  back : List (List α)
  eq : ws = front ++ (left ++ q ++ right) :: back

namespace Place

variable {q : List α} {ws : List (List α)}

/-- What is in front of it where the pieces are joined by `r`. -/
def before (pl : Place q ws) (r : List α) : List α := pl.front.flatMap (fun w => w ++ r) ++ pl.left

def after (pl : Place q ws) (r : List α) : List α := pl.right ++ pl.back.flatMap fun w => r ++ w

theorem intercalate_cons_eq (r w : List α) (ws : List (List α)) :
    r.intercalate (w :: ws) = w ++ ws.flatMap fun w => r ++ w := by
  induction ws generalizing w with
  | nil => simp
  | cons v ws ih => rw [List.intercalate_cons_cons, ih v, List.flatMap_cons, List.append_assoc, List.append_assoc]

theorem intercalate_eq (pl : Place q ws) (r : List α) :
    r.intercalate ws = pl.before r ++ q ++ pl.after r := by
  obtain ⟨front, left, right, back, rfl⟩ := pl
  simp only [before, after]
  induction front with
  | nil => simp [intercalate_cons_eq]
  | cons w front ih =>
    rw [List.cons_append, List.intercalate_cons_of_ne_nil (by simp), ih, List.flatMap_cons]
    simp

theorem exists_infix (pl : Place q ws) : ∃ w ∈ ws, q <:+: w := by
  obtain ⟨front, left, right, back, rfl⟩ := pl
  exact ⟨left ++ q ++ right, by simp, left, right, rfl⟩

end Place

/-- With `x` in front of it, `q` meets the `r` between two of the pieces, or has the seam of the
two inside it where `r` is empty. -/
def AtJoint (r : List α) (ws : List (List α)) (q x : List α) : Prop :=
  ∃ front back, ws = front ++ back ∧ front ≠ [] ∧ back ≠ [] ∧
    x.length < (r.intercalate front).length + r.length ∧
    (r.intercalate front).length < x.length + q.length

theorem AtJoint.cons {r q x : List α} {ws : List (List α)} (h : AtJoint r ws q x) (w : List α) :
    AtJoint r (w :: ws) q (w ++ (r ++ x)) := by
  obtain ⟨front, back, rfl, hfront, hback, hlo, hhi⟩ := h
  refine ⟨w :: front, back, rfl, List.cons_ne_nil w front, hback, ?_, ?_⟩
  · rw [List.intercalate_cons_of_ne_nil hfront]
    simp only [List.length_append]
    omega
  · rw [List.intercalate_cons_of_ne_nil hfront]
    simp only [List.length_append]
    omega

/-- What is in the joined text is in one of the pieces, or meets what they are joined by. -/
theorem place_or_atJoint {q r x y : List α} {ws : List (List α)} (hws : ws ≠ [])
    (h : r.intercalate ws = x ++ q ++ y) :
    (∃ pl : Place q ws, pl.before r = x ∧ pl.after r = y) ∨ AtJoint r ws q x := by
  induction ws generalizing x with
  | nil => exact absurd rfl hws
  | cons w ws ih =>
    cases ws with
    | nil =>
      rw [List.intercalate_singleton] at h
      exact .inl ⟨⟨[], x, y, [], by rw [h, List.nil_append]⟩, rfl, List.append_nil y⟩
    | cons v ws =>
      rw [List.intercalate_cons_cons, List.append_assoc] at h
      by_cases hin : x.length + q.length ≤ w.length
      · -- in the first piece
        obtain ⟨right, rfl⟩ : x ++ q <+: w :=
          List.prefix_of_prefix_length_le ⟨y, rfl⟩ ⟨_, h⟩ (by rwa [List.length_append])
        refine .inl ⟨⟨[], x, right, v :: ws, rfl⟩, rfl, ?_⟩
        rw [List.append_assoc (x ++ q), List.append_cancel_left_eq, Place.intercalate_cons_eq] at h
        simpa only [Place.after, List.flatMap_cons, List.append_assoc] using h
      · by_cases hbehind : w.length + r.length ≤ x.length
        · -- behind the first joint
          obtain ⟨x', rfl⟩ : w ++ r <+: x := by
            rw [← List.append_assoc] at h
            exact List.prefix_of_prefix_length_le ⟨_, h⟩ ⟨q ++ y, (List.append_assoc x q y).symm⟩
              (by rwa [List.length_append])
          have hrest : r.intercalate (v :: ws) = x' ++ q ++ y := by
            simpa [List.append_assoc] using h
          rcases ih (List.cons_ne_nil v ws) hrest with ⟨pl, hbefore, hafter⟩ | hjoint
          · refine .inl ⟨⟨w :: pl.front, pl.left, pl.right, pl.back, congrArg (w :: ·) pl.eq⟩, ?_, hafter⟩
            rw [← hbefore, Place.before, Place.before, List.flatMap_cons, List.append_assoc]
          · rw [List.append_assoc]
            exact .inr (hjoint.cons w)
        · refine .inr ⟨[w], v :: ws, rfl, List.cons_ne_nil w [], List.cons_ne_nil v ws, ?_, ?_⟩
          · rw [List.intercalate_singleton]
            omega
          · rw [List.intercalate_singleton]
            omega

-- ---------------------------------------------------------------------------
-- Turns
-- ---------------------------------------------------------------------------

section
variable [DecidableEq α]

/-- Each literal with what stands for it, in turn. -/
def replaceAll (rules : List (List α × List α)) (l : List α) : List α :=
  rules.foldl (fun l rule => replace rule.1 rule.2 l) l

/-- The turns leave alone the `q` that has `x` in front of it and `y` behind. -/
inductive Stands (q : List α) : List (List α × List α) → List α → List α → Prop
  | nil (x y : List α) : Stands q [] x y
  | cons {p r l x y : List α} {rules : List (List α × List α)} (hl : l = x ++ q ++ y)
      (pl : Place q (pieces p l)) (hx : pl.before p = x) (hy : pl.after p = y)
      (rest : Stands q rules (pl.before r) (pl.after r)) : Stands q ((p, r) :: rules) x y

/-- The turn of `p` makes the `q` with `x` in front of it and `y` behind: it meets one of the places
where `p` is cut out of `l` and `r` put in. -/
structure Makes (p r l q x y : List α) : Prop where
  eq : r.intercalate (pieces p l) = x ++ q ++ y
  joint : AtJoint r (pieces p l) q x

/-- A literal that has had its turn is made again, and the turns left do not see it. -/
def Remade (rules : List (List α × List α)) (l : List α) : Prop :=
  ∃ done p r todo q x y, rules = done ++ (p, r) :: todo ∧ q ∈ (done ++ [(p, r)]).map Prod.fst ∧
    Makes p r (replaceAll done l) q x y ∧ Stands q todo x y

variable {q p : List α}

theorem Stands.infix_replaceAll {rules : List (List α × List α)} {x y : List α} (h : Stands q rules x y) :
    q <:+: replaceAll rules (x ++ q ++ y) := by
  induction h with
  | nil x y => exact ⟨x, y, rfl⟩
  | @cons p r l x y rules hl pl hx hy rest ih =>
    rw [← hl, replaceAll, List.foldl_cons, replace, pl.intercalate_eq r]
    exact ih

/-- No literal stands through its own turn. -/
theorem Stands.not_mem {rules : List (List α × List α)} {x y : List α} (h : Stands q rules x y)
    (hq : q ≠ []) : q ∉ rules.map Prod.fst := by
  induction h with
  | nil => nofun
  | @cons p r l x y rules hl pl hx hy rest ih =>
    rw [List.map_cons, List.mem_cons, not_or]
    refine ⟨?_, ih⟩
    rintro rfl
    obtain ⟨w, hw, hin⟩ := pl.exists_infix
    exact not_infix_of_mem_pieces hq hw hin

theorem pieces_ne_nil (hp : p ≠ []) (l : List α) : pieces p l ≠ [] := by
  rw [pieces_eq hp]
  exact piecesFrom_ne_nil p 0 l

/-- What stands at the end has stood from the start, or a turn has made it. -/
theorem infix_replaceAll_iff {rules : List (List α × List α)} (hne : ∀ rule ∈ rules, rule.1 ≠ [])
    (l : List α) :
    q <:+: replaceAll rules l ↔
      (∃ x y, l = x ++ q ++ y ∧ Stands q rules x y) ∨
        ∃ done p r todo x y, rules = done ++ (p, r) :: todo ∧ Makes p r (replaceAll done l) q x y ∧
          Stands q todo x y := by
  constructor
  · intro h
    induction rules generalizing l with
    | nil =>
      obtain ⟨x, y, rfl⟩ := h
      exact .inl ⟨x, y, rfl, .nil x y⟩
    | cons rule rules ih =>
      obtain ⟨p, r⟩ := rule
      have hp : p ≠ [] := hne (p, r) List.mem_cons_self
      obtain ⟨x, y, heq, hstands⟩ | ⟨done, p', r', todo, x, y, hrules, hmakes, hstands⟩ :=
        ih (fun rule hrule => hne rule (List.mem_cons_of_mem _ hrule)) (replace p r l) h
      · rcases place_or_atJoint (pieces_ne_nil hp l) heq with ⟨pl, rfl, rfl⟩ | hjoint
        · have hl : l = pl.before p ++ q ++ pl.after p := by
            rw [← pl.intercalate_eq p, intercalate_pieces hp]
          exact .inl ⟨pl.before p, pl.after p, hl, .cons hl pl rfl rfl hstands⟩
        · exact .inr ⟨[], p, r, rules, x, y, rfl, ⟨heq, hjoint⟩, hstands⟩
      · exact .inr ⟨(p, r) :: done, p', r', todo, x, y, by rw [hrules]; rfl, hmakes, hstands⟩
  · rintro (⟨x, y, rfl, hstands⟩ | ⟨done, p, r, todo, x, y, rfl, hmakes, hstands⟩)
    · exact hstands.infix_replaceAll
    · rw [replaceAll, List.foldl_append, List.foldl_cons]
      have h := hstands.infix_replaceAll
      rwa [← hmakes.eq] at h

/-- At the end no literal is in the text, unless one was made again. -/
theorem clean_iff {rules : List (List α × List α)} (hne : ∀ rule ∈ rules, rule.1 ≠ []) (l : List α) :
    (∀ rule ∈ rules, ¬ rule.1 <:+: replaceAll rules l) ↔ ¬ Remade rules l := by
  constructor
  · rintro hclean ⟨done, p, r, todo, q, x, y, rfl, hq, hmakes, hstands⟩
    obtain ⟨rule, hrule, rfl⟩ := List.mem_map.mp hq
    have hmem : rule ∈ done ++ (p, r) :: todo := by
      rw [List.append_cons]
      exact List.mem_append_left _ hrule
    exact hclean rule hmem
      ((infix_replaceAll_iff hne l).mpr (.inr ⟨done, p, r, todo, x, y, rfl, hmakes, hstands⟩))
  · intro hremade rule hrule hin
    have hq := hne rule hrule
    obtain ⟨x, y, -, hstands⟩ | ⟨done, p, r, todo, x, y, rfl, hmakes, hstands⟩ :=
      (infix_replaceAll_iff hne l).mp hin
    · exact hstands.not_mem hq (List.mem_map_of_mem hrule)
    · -- its turn is not among those that are left
      rw [List.append_cons, List.mem_append] at hrule
      rcases hrule with hdone | htodo
      · exact hremade ⟨done, p, r, todo, rule.1, x, y, rfl, List.mem_map_of_mem hdone, hmakes, hstands⟩
      · exact hstands.not_mem hq (List.mem_map_of_mem htodo)

end

end Lib
