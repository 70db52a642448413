import Mathlib.Algebra.Group.Nat.Defs

/-!
# Words as bytes and byte cursors

Fixed-width words as bytes in either order, and readers that consume a byte
string from the front. `Reads t bytes a` says that the reader `t` takes exactly
`bytes` off any longer input and returns `a`; its rules follow the reader's own
structure, so a round trip is proved field by field.
-/

namespace Lib.Bytes

-- ---------------------------------------------------------------------------
-- Words
-- ---------------------------------------------------------------------------

/-- The low `k` bytes of `n`, least significant first. -/
def toLe : Nat → Nat → List UInt8
  | 0, _ => []
  | k + 1, n => UInt8.ofNat n :: toLe k (n / 256)

def ofLe : List UInt8 → Nat
  | [] => 0
  | b :: bs => b.toNat + 256 * ofLe bs

@[simp] theorem length_toLe (k n : Nat) : (toLe k n).length = k := by
  induction k generalizing n with
  | zero => rfl
  | succ k ih => simp [toLe, ih]

theorem ofLe_toLe (k n : Nat) : ofLe (toLe k n) = n % 256 ^ k := by
  induction k generalizing n with
  | zero => simp [toLe, ofLe, Nat.mod_one]
  | succ k ih =>
    simp only [toLe, ofLe, ih]
    have hb : (UInt8.ofNat n).toNat = n % 256 := by simp [UInt8.toNat_ofNat']
    rw [hb, Nat.pow_succ', Nat.mod_mul]

theorem ofLe_toLe_of_lt (h : n < 256 ^ k) : ofLe (toLe k n) = n := by
  rw [ofLe_toLe, Nat.mod_eq_of_lt h]

/-- The low `k` bytes of `n`, most significant first. -/
def toBe (k n : Nat) : List UInt8 := (toLe k n).reverse

def ofBe (bytes : List UInt8) : Nat := ofLe bytes.reverse

@[simp] theorem length_toBe (k n : Nat) : (toBe k n).length = k := by
  rw [toBe, List.length_reverse, length_toLe]

theorem ofBe_toBe_of_lt (h : n < 256 ^ k) : ofBe (toBe k n) = n := by
  rw [ofBe, toBe, List.reverse_reverse, ofLe_toLe_of_lt h]

-- ---------------------------------------------------------------------------
-- Parts
-- ---------------------------------------------------------------------------

def part (bytes : List UInt8) (lo hi : Nat) : List UInt8 := (bytes.drop lo).take (hi - lo)

theorem part_append (first mid rest : List UInt8) {lo hi : Nat} (hlo : first.length = lo)
    (hhi : lo + mid.length = hi) : part (first ++ (mid ++ rest)) lo hi = mid := by
  subst hlo hhi
  rw [part, List.drop_left, Nat.add_sub_cancel_left, List.take_left]

-- ---------------------------------------------------------------------------
-- Readers
-- ---------------------------------------------------------------------------

/-- A reader takes bytes off the front of its input, or fails. -/
abbrev Take (ε α : Type) := StateT (List UInt8) (Except ε) α

namespace Take

def byte (short : ε) : Take ε UInt8 := fun input =>
  match input with
  | [] => .error short
  | b :: rest => .ok (b, rest)

/-- A little-endian word of `k` bytes. -/
def le (short : ε) (k : Nat) : Take ε Nat := fun input =>
  if input.length < k then .error short else .ok (ofLe (input.take k), input.drop k)

/-- The same reader `n` times over. -/
def many (t : Take ε α) : Nat → Take ε (List α)
  | 0 => pure []
  | n + 1 => do
    let a ← t
    let as ← many t n
    pure (a :: as)

end Take

/-- `t` takes `bytes`, no more and no less, and returns `a`. -/
def Reads (t : Take ε α) (bytes : List UInt8) (a : α) : Prop :=
  ∀ rest, t.run (bytes ++ rest) = .ok (a, rest)

namespace Reads

theorem pure : Reads (Pure.pure a : Take ε α) [] a := fun _ => rfl

theorem bind {t : Take ε α} {f : α → Take ε β} (ht : Reads t first a)
    (hf : Reads (f a) second b) : Reads (t >>= f) (first ++ second) b := by
  intro rest
  have h := ht (second ++ rest)
  rw [List.append_assoc]
  simp only [StateT.run_bind, h]
  exact hf rest

theorem bind_first {t : Take ε α} {f : α → Take ε β} (ht : Reads t [] a)
    (hf : Reads (f a) bytes b) : Reads (t >>= f) bytes b := ht.bind hf

theorem bind_last {t : Take ε α} {f : α → Take ε β} (ht : Reads t bytes a)
    (hf : Reads (f a) [] b) : Reads (t >>= f) bytes b := by
  have h := ht.bind hf
  rwa [List.append_nil] at h

theorem map {t : Take ε α} (ht : Reads t bytes a) (f : α → β) :
    Reads (f <$> t) bytes (f a) := by
  intro rest
  rw [StateT.run_map, ht rest]
  rfl

theorem byte (short : ε) (b : UInt8) : Reads (Take.byte short) [b] b := fun _ => rfl

theorem le (short : ε) (h : n < 256 ^ k) : Reads (Take.le short k) (toLe k n) n := by
  intro rest
  have hk : ¬ (toLe k n ++ rest).length < k := by simp
  have htake : (toLe k n ++ rest).take k = toLe k n :=
    List.take_left' (length_toLe k n)
  have hdrop : (toLe k n ++ rest).drop k = rest := List.drop_left' (length_toLe k n)
  simp only [Take.le, StateT.run, hk, if_false, htake, hdrop, ofLe_toLe_of_lt h]

/-- What `t` reads off an input is settled by the input, and so is what follows. -/
theorem unique {t : Take ε α} (h : Reads t bytes a) (h' : Reads t bytes' a')
    (heq : bytes ++ rest = bytes' ++ rest') : a = a' ∧ rest = rest' := by
  have hread := h rest
  rw [heq, h' rest'] at hread
  obtain ⟨rfl, rfl⟩ := Prod.mk.inj (Except.ok.inj hread)
  exact ⟨rfl, rfl⟩

theorem many {t : Take ε α} {put : α → List UInt8} (h : ∀ a, Reads t (put a) a) :
    ∀ l : List α, Reads (Take.many t l.length) (l.flatMap put) l
  | [] => Reads.pure
  | a :: as => by
    exact (h a).bind ((many h as).bind_last Reads.pure)

end Reads

-- ---------------------------------------------------------------------------
-- Readers on longer inputs
-- ---------------------------------------------------------------------------

/-- What `t` reads off an input it reads off every longer one, and it leaves what
is added. -/
def Extends (t : Take ε α) : Prop :=
  ∀ input a rest more, t.run input = .ok (a, rest) → t.run (input ++ more) = .ok (a, rest ++ more)

namespace Extends

theorem pure (a : α) : Extends (Pure.pure a : Take ε α) := by
  intro input b rest more h
  obtain ⟨rfl, rfl⟩ := Prod.mk.inj (Except.ok.inj h)
  rfl

theorem throw (e : ε) : Extends (throw e : Take ε α) := fun _ _ _ _ h => nomatch h

theorem bind {t : Take ε α} {f : α → Take ε β} (ht : Extends t) (hf : ∀ a, Extends (f a)) :
    Extends (t >>= f) := by
  intro input b rest more h
  rw [StateT.run_bind] at h ⊢
  cases hfirst : t.run input with
  | error e =>
    rw [hfirst] at h
    cases h
  | ok p =>
    rw [hfirst] at h
    rw [ht input p.1 p.2 more hfirst]
    exact hf p.1 p.2 b rest more h

theorem map {t : Take ε α} (ht : Extends t) (f : α → β) : Extends (f <$> t) := by
  rw [← bind_pure_comp]
  exact ht.bind fun a => pure (f a)

theorem ite {c : Prop} [Decidable c] {t u : Take ε α} (ht : Extends t) (hu : Extends u) :
    Extends (if c then t else u) := by
  split
  · exact ht
  · exact hu

theorem byte (short : ε) : Extends (Take.byte short) := by
  intro input b rest more h
  cases input with
  | nil => cases h
  | cons c input =>
    obtain ⟨rfl, rfl⟩ := Prod.mk.inj (Except.ok.inj h)
    rfl

theorem le (short : ε) (k : Nat) : Extends (Take.le short k) := by
  intro input n rest more h
  unfold Take.le StateT.run at h ⊢
  dsimp only at h ⊢
  split at h
  case isTrue => cases h
  case isFalse hlen =>
    obtain ⟨rfl, rfl⟩ := Prod.mk.inj (Except.ok.inj h)
    have hlonger : ¬ (input ++ more).length < k := by
      rw [List.length_append]
      omega
    rw [if_neg hlonger, List.take_append_of_le_length (by omega),
      List.drop_append_of_le_length (by omega)]

theorem many {t : Take ε α} (ht : Extends t) : ∀ n, Extends (Take.many t n)
  | 0 => pure []
  | n + 1 => ht.bind fun _ => (many ht n).bind fun _ => pure _

end Extends

/-- A reader that takes all of `bytes` finds no end in what is short of them. -/
theorem Reads.eq_nil_of_prefix {t : Take ε α} (h : Reads t (short ++ more) a) (ht : Extends t)
    (hshort : t.run short = .ok (b, [])) : more = [] := by
  have hlong := ht short b [] more hshort
  have hall := h []
  rw [List.append_nil] at hall
  rw [hall] at hlong
  exact (Prod.mk.inj (Except.ok.inj hlong)).2.symm

-- ---------------------------------------------------------------------------
-- What a reader returns
-- ---------------------------------------------------------------------------

/-- Whatever `t` returns is `P`. -/
def Returns (t : Take ε α) (P : α → Prop) : Prop :=
  ∀ input a rest, t.run input = .ok (a, rest) → P a

namespace Returns

theorem trivial (t : Take ε α) : Returns t fun _ => True := fun _ _ _ _ => True.intro

theorem pure {P : α → Prop} (h : P a) : Returns (Pure.pure a : Take ε α) P := by
  intro input b rest hb
  obtain ⟨rfl, -⟩ := Prod.mk.inj (Except.ok.inj hb)
  exact h

theorem throw (e : ε) (P : α → Prop) : Returns (throw e : Take ε α) P := fun _ _ _ h => nomatch h

theorem bind {t : Take ε α} {f : α → Take ε β} {P : α → Prop} {Q : β → Prop} (ht : Returns t P)
    (hf : ∀ a, P a → Returns (f a) Q) : Returns (t >>= f) Q := by
  intro input b rest h
  rw [StateT.run_bind] at h
  cases hfirst : t.run input with
  | error e =>
    rw [hfirst] at h
    cases h
  | ok p =>
    rw [hfirst] at h
    exact hf p.1 (ht input p.1 p.2 hfirst) p.2 b rest h

theorem skip {t : Take ε α} {f : α → Take ε β} {Q : β → Prop} (hf : ∀ a, Returns (f a) Q) :
    Returns (t >>= f) Q := (trivial t).bind fun a _ => hf a

theorem map {t : Take ε α} {f : α → β} {P : α → Prop} {Q : β → Prop} (ht : Returns t P)
    (hf : ∀ a, P a → Q (f a)) : Returns (f <$> t) Q := by
  rw [← bind_pure_comp]
  exact ht.bind fun a ha => pure (hf a ha)

theorem ite {c : Prop} [Decidable c] {t u : Take ε α} {P : α → Prop} (ht : c → Returns t P)
    (hu : ¬ c → Returns u P) : Returns (if c then t else u) P := by
  split
  case isTrue hc => exact ht hc
  case isFalse hc => exact hu hc

theorem many (t : Take ε α) : ∀ n, Returns (Take.many t n) fun l => l.length = n
  | 0 => pure rfl
  | n + 1 => skip fun _ => (many t n).bind fun as h => pure (by rw [List.length_cons, h])

end Returns

end Lib.Bytes
