import Rill.Kernel.Alike
import Rill.Kernel.Steady
import Rill.Lib.Repair

/-!
# A leaf whose system does not fail

The kernel with the failures taken out of one leaf's script. What the kernel does
with the leaf is the same, until a call that the script has fail ends it.
-/

namespace Rill.Kernel

open Lib Attach

/-- All failures but that of a dead child. -/
def Fatal (e : Error) : Prop := e ≠ .dead

-- ---------------------------------------------------------------------------
-- The PTY
-- ---------------------------------------------------------------------------

def Turn.heal (t : Turn) : Turn := { t with fault := none }

namespace Pty

def heal (p : Pty) : Pty := { p with turns := p.turns.map Turn.heal }

/-- The turns of the script `T` that were taken. -/
def gone (T : List Turn) (p : Pty) : List Turn := T.take (T.length - p.turns.length)

def repair (T : List Turn) : Repair Pty where
  fix := heal
  sound p := p.turns <:+ T ∧ ∀ t ∈ p.gone T, t.fault = none
  struck p := ∃ t ∈ p.gone T, t.fault.isSome

/-- A failing call on a PTY with the script `T` is all that sets `m` apart. -/
abbrev Follows (T : List Turn) (m : Op Pty Error α) : Prop := (repair T).Follows Fatal m

variable {T : List Turn}

theorem backlog_heal (p : Pty) : p.heal.backlog = p.backlog := by
  unfold backlog heal
  rw [List.map_map]
  rfl

theorem struck_of_le {p q : Pty} (h : (repair T).struck p) (hle : q.turns.length ≤ p.turns.length) :
    (repair T).struck q := by
  obtain ⟨t, ht, hfault⟩ := h
  have hprefix : p.gone T <+: q.gone T := List.take_prefix_take_left (by omega)
  exact ⟨t, hprefix.subset ht, hfault⟩

theorem turns_turn (p : Pty) : p.turn.2.turns = p.turns.tail := by
  unfold turn runChild
  dsimp only
  split <;> rfl

theorem turn_heal (p : Pty) : p.heal.turn = (p.turn.1.heal, p.turn.2.heal) := by
  have hhead : (p.turns.map Turn.heal).headD .quiet = (p.turns.headD .quiet).heal := by
    cases p.turns <;> rfl
  have htail : (p.turns.map Turn.heal).tail = p.turns.tail.map Turn.heal := by
    cases p.turns <;> rfl
  unfold turn heal
  dsimp only
  rw [hhead, htail]
  unfold runChild
  dsimp only
  split <;> rfl

theorem gone_turn {p : Pty} (h : p.turns <:+ T) :
    p.turn.2.gone T = p.gone T ++ p.turns.head?.toList := by
  unfold gone
  rw [turns_turn]
  obtain ⟨used, rfl⟩ := h
  cases p.turns with
  | nil => simp
  | cons t rest =>
    have hlen : (used ++ t :: rest).length - (t :: rest).tail.length = used.length + 1 := by
      simp only [List.length_append, List.length_cons, List.tail_cons]
      omega
    have hlen' : (used ++ t :: rest).length - (t :: rest).length = used.length := by
      rw [List.length_append]
      omega
    rw [hlen, hlen', List.take_left, List.take_length_add_append]
    rfl

/-- What follows a call's turn need only fail where the turn says so. -/
theorem follows_turn {k : Turn → Op Pty Error α} (hk : ∀ t, Follows T (k t))
    (hfails : ∀ t p, t.fault.isSome → ∃ e q, (k t).exec p = (.error e, q) ∧ Fatal e) :
    Follows T (takeTurn >>= k) := by
  refine ⟨.bind (.get_bind fun p hp => struck_of_le hp ?_) fun t => (hk t).keeps, ?_⟩
  · change p.turn.2.turns.length ≤ _
    rw [turns_turn, List.length_tail]
    exact Nat.sub_le ..
  · rintro p ⟨hsuffix, hsound⟩
    have hgone := gone_turn hsuffix
    have hsuffix' : p.turn.2.turns <:+ T := by
      rw [turns_turn]
      exact (List.tail_suffix _).trans hsuffix
    have hturn : (repair T).fix p = p.heal := rfl
    rw [Op.exec_bind_ok (exec_takeTurn p), hturn, Op.exec_bind_ok (exec_takeTurn p.heal), turn_heal]
    cases hfault : p.turn.1.fault with
    | none =>
      have hsame : p.turn.1.heal = p.turn.1 := by rw [Turn.heal, ← hfault]
      have hnext : (repair T).sound p.turn.2 := by
        refine ⟨hsuffix', fun t ht => ?_⟩
        rw [hgone] at ht
        rcases List.mem_append.mp ht with ht | ht
        · exact hsound t ht
        · have hhead : p.turn.1 = t := by
            change p.turns.headD .quiet = t
            rw [List.headD_eq_head?_getD, Option.mem_toList.mp ht]
            rfl
          exact hhead ▸ hfault
      dsimp only
      rw [hsame]
      exact (hk p.turn.1).run _ hnext
    | some fault =>
      obtain ⟨e, q, hrun, he⟩ := hfails p.turn.1 p.turn.2 (by rw [hfault]; rfl)
      rw [hrun]
      refine .fails he ((hk _).keeps _ ⟨p.turn.1, ?_, by rw [hfault]; rfl⟩)
      have hgone' : p.turn.2.heal.gone T = p.turn.2.gone T := by
        unfold gone heal
        rw [List.length_map]
      rw [hgone', hgone]
      refine List.mem_append_right _ (Option.mem_toList.mpr ?_)
      change p.turns.head? = some (p.turns.headD .quiet)
      change (p.turns.headD .quiet).fault = some fault at hfault
      cases hturns : p.turns with
      | nil =>
        rw [hturns] at hfault
        cases hfault
      | cons t rest => rfl

theorem follows_tryWait : Follows T tryWait := by
  refine .get_bind (fun _ _ => rfl) fun p => .ite (.pure _) ?_
  refine follows_turn (fun t => .guard ?_) fun t q hfault => ?_
  · refine .get_bind (fun _ _ => rfl) fun q => ?_
    exact .bind (.modify (fun _ h => h) (fun _ h => h) fun _ _ => rfl) fun _ => .pure _
  · rw [if_pos hfault]
    exact ⟨_, _, rfl, Error.noConfusion⟩

theorem follows_writeAll (bytes : List UInt8) : Follows T (writeAll bytes) := by
  refine .get_bind (fun _ _ => rfl) fun p => .ite (.pure _) ?_
  refine follows_turn (fun t => ?_) fun t q hfault => ?_
  · cases t.fault with
    | none => exact .modify (fun _ h => h) (fun _ h => h) fun _ _ => rfl
    | some fault =>
      exact .bind (.modify (fun _ h => h) (fun _ h => h) fun _ _ => rfl) fun _ => .throw _
  · cases hwhy : t.fault with
    | none =>
      rw [hwhy] at hfault
      cases hfault
    | some fault =>
      refine ⟨_, _, rfl, ?_⟩
      cases fault with
      | timeout => exact Error.noConfusion
      | io => exact Error.noConfusion

theorem follows_read (n : Nat) : Follows T (read n) := by
  refine .get_bind (fun _ _ => rfl) fun p => .ite (.pure _) ?_
  refine follows_turn (fun t => .guard ?_) fun t q hfault => ?_
  · refine .get_bind (fun _ _ => rfl) fun q => ?_
    exact .bind (.modify (fun _ h => h) (fun _ h => h) fun _ _ => rfl) fun _ => .pure _
  · rw [if_pos hfault]
    exact ⟨_, _, rfl, Error.noConfusion⟩

theorem follows_setWinsize (size : Winsize) : Follows T (setWinsize size) := by
  refine .get_bind (fun _ _ => rfl) fun p => .ite (.throw _) ?_
  refine follows_turn (fun t => .guard ?_) fun t q hfault => ?_
  · exact .modify (fun _ h => h) (fun _ h => h) fun _ _ => rfl
  · rw [if_pos hfault]
    exact ⟨_, _, rfl, Error.noConfusion⟩

end Pty

-- ---------------------------------------------------------------------------
-- The session
-- ---------------------------------------------------------------------------

namespace Session

def heal (s : Session) : Session := { s with pty := s.pty.heal }

/-- A leaf that dies with its writer would end its child behind the script's back. -/
def repair (T : List Turn) : Repair Session where
  fix := heal
  sound s := s.ephemeral = false ∧ (Pty.repair T).sound s.pty
  struck s := s.ephemeral = false ∧ (Pty.repair T).struck s.pty

abbrev Follows (T : List Turn) (m : Op Session Error α) : Prop := (repair T).Follows Fatal m

variable {T : List Turn}

theorem follows_onPty {m : Op Pty Error α} (hm : Pty.Follows T m) : Follows T (onPty m) :=
  .on {
    get_fix := fun _ => rfl
    put_fix := fun _ _ => rfl
    sound := fun _ h => h.2
    struck := fun _ h => h.2
    put_sound := fun _ _ h hp => ⟨h.1, hp⟩
    put_struck := fun _ _ h hp => ⟨h.1, hp⟩
    strikes := fun _ _ h hp => ⟨h.1, hp⟩ } hm

theorem follows_modify {f : Session → Session} (hpty : ∀ s, (f s).pty = s.pty)
    (hephemeral : ∀ s, (f s).ephemeral = s.ephemeral) (hfix : ∀ s, f s.heal = (f s).heal) :
    Follows T (modify f) := by
  refine .modify ?_ ?_ fun s _ => hfix s
  · rintro s ⟨hs, hp⟩
    exact ⟨(hephemeral s).trans hs, by rwa [hpty]⟩
  · rintro s ⟨hs, hp⟩
    exact ⟨(hephemeral s).trans hs, by rwa [hpty]⟩

theorem follows_pollChild : Follows T pollChild := by
  refine .get_bind (fun _ _ => rfl) fun s => .ite (.pure _) ?_
  refine .bind (follows_onPty Pty.follows_tryWait) fun status => ?_
  cases status with
  | none => exact .pure _
  | some status =>
    refine .bind (follows_modify (fun _ => rfl) (fun _ => rfl) fun _ => rfl) fun _ => .pure _

theorem follows_reap (m : Moment) : Follows T (reap m) :=
  .bind (follows_modify (fun _ => rfl) (fun _ => rfl) fun _ => rfl) fun _ => follows_pollChild

theorem follows_flushLoop (bufs : List (List UInt8)) : Follows T (flushLoop bufs) := by
  induction bufs with
  | nil => exact .pure _
  | cons buf bufs ih =>
    refine .bind (follows_modify (fun _ => rfl) (fun _ => rfl) fun _ => rfl) fun _ => ?_
    refine .bind (follows_onPty (Pty.follows_writeAll buf)) fun _ => ?_
    exact .bind (follows_modify (fun _ => rfl) (fun _ => rfl) fun _ => rfl) fun _ => ih

theorem follows_flushInput : Follows T flushInput :=
  .get_bind (fun _ _ => rfl) fun _ => follows_flushLoop _

theorem follows_applyResize (m : Moment) (size : Winsize) : Follows T (applyResize m size) := by
  refine .bind (follows_modify (fun _ => rfl) (fun _ => rfl) fun _ => rfl) fun _ => ?_
  refine .get_bind (fun _ _ => rfl) fun s => .ite (.pure _) ?_
  refine .bind follows_flushInput fun _ => ?_
  refine .bind (follows_modify (fun _ => rfl) (fun _ => rfl) fun _ => rfl) fun _ => ?_
  refine .bind (follows_onPty (Pty.follows_setWinsize size)) fun _ => ?_
  exact follows_modify (fun _ => rfl) (fun _ => rfl) fun _ => rfl

theorem follows_applyData (m : Moment) (bytes : List UInt8) : Follows T (applyData m bytes) := by
  refine .get_bind (fun _ _ => rfl) fun s => .guard ?_
  refine .bind (follows_modify (fun _ => rfl) (fun _ => rfl) fun _ => rfl) fun _ => ?_
  refine .get_bind (fun _ _ => rfl) fun t => .ite (.pure _) ?_
  exact .bind (follows_modify (fun _ => rfl) (fun _ => rfl) fun _ => rfl) fun _ => follows_flushInput

theorem follows_attach (m : Moment) (generation : UInt64) (observe : Bool) :
    Follows T (modify fun s => s.attach m generation observe) := by
  have hcases : ∀ s : Session, (s.attach m generation observe).pty = s.pty ∧
      (s.attach m generation observe).ephemeral = s.ephemeral ∧
      s.heal.attach m generation observe = (s.attach m generation observe).heal := by
    intro s
    have hattached : s.heal.attached = s.attached := rfl
    unfold attach
    rw [hattached]
    split
    · exact ⟨rfl, rfl, rfl⟩
    · split <;> exact ⟨rfl, rfl, rfl⟩
  exact follows_modify (fun s => (hcases s).1) (fun s => (hcases s).2.1) fun s => (hcases s).2.2

theorem follows_onFrame (m : Moment) (frame : Frame) : Follows T (onFrame m frame) := by
  cases frame with
  | attach generation _ _ observe => exact follows_attach m generation observe
  | credit n => exact follows_modify (fun _ => rfl) (fun _ => rfl) fun _ => rfl
  | resize cols rows pxW pxH => exact follows_applyResize m _
  | data bytes => exact follows_applyData m bytes
  | exit | refused | checkpoint | delta | resyncRequest => exact .pure _

theorem follows_drainPtyAtMost (max : Option Nat) : Follows T (drainPtyAtMost max) := by
  refine .get_bind (fun _ _ => rfl) fun s => .ite (.pure _) (.ite ?_ ?_)
  · exact .bind (follows_modify (fun _ => rfl) (fun _ => rfl) fun _ => rfl) fun _ => .pure _
  · refine .bind (follows_onPty (Pty.follows_read _)) fun got => .ite (.pure _) ?_
    exact .bind (follows_modify (fun _ => rfl) (fun _ => rfl) fun _ => rfl) fun _ => .pure _

theorem follows_onPtyReadable : Follows T onPtyReadable := by
  refine .get_bind (fun _ _ => rfl) fun s => .ite ?_ ?_
  · exact .bind (follows_modify (fun _ => rfl) (fun _ => rfl) fun _ => rfl) fun _ => .pure _
  · refine .bind (follows_onPty (Pty.follows_read _)) fun got => .ite (.pure _) ?_
    exact .bind (follows_modify (fun _ => rfl) (fun _ => rfl) fun _ => rfl) fun _ => .pure _

end Session

-- ---------------------------------------------------------------------------
-- The graph
-- ---------------------------------------------------------------------------

def heal (i : SessionId) (k : Kernel) : Kernel :=
  { k with leaves := k.leaves.map fun id s => if id = i then s.heal else s }

def repair (i : SessionId) (T : List Turn) : Repair Kernel where
  fix := heal i
  sound k := ∃ s, k.session i = some s ∧ (Session.repair T).sound s
  struck k := ∃ s, k.session i = some s ∧ (Session.repair T).struck s

abbrev Follows (i : SessionId) (T : List Turn) (m : Op Kernel Error α) : Prop :=
  (repair i T).Follows Fatal m

variable {i : SessionId} {T : List Turn}

theorem ids_heal (k : Kernel) : (k.heal i).ids = k.ids := Table.keys_map ..

theorem session_heal (k : Kernel) (id : SessionId) :
    (k.heal i).session id = (k.session id).map fun s => if id = i then s.heal else s :=
  Table.get?_map ..

theorem map_session_heal {f : Session → α} (hf : ∀ s, f s.heal = f s) (k : Kernel) (id : SessionId) :
    ((k.heal i).session id).map f = (k.session id).map f := by
  rw [session_heal, Option.map_map]
  congr 1
  funext s
  simp only [Function.comp]
  split
  · exact hf s
  · rfl

theorem attached_heal (k : Kernel) (id : SessionId) : (k.heal i).attached id = k.attached id := by
  have hmap := map_session_heal (i := i) (f := Session.attached) (fun _ => rfl) k id
  unfold attached
  cases h : k.session id with
  | none =>
    rw [h] at hmap
    rw [Option.map_eq_none_iff.mp hmap]
  | some s =>
    rw [h] at hmap
    obtain ⟨t, ht, heq⟩ := Option.map_eq_some_iff.mp hmap
    rw [ht]
    exact heq

theorem setSession_heal (k : Kernel) (id : SessionId) (s : Session) :
    (k.heal i).setSession id (if id = i then s.heal else s) = (k.setSession id s).heal i := by
  unfold setSession heal
  rw [Table.map_set]

theorem leaf_setSession {P : Session → Prop} {k : Kernel} {id : SessionId} {s t : Session}
    (h : ∃ s, k.session i = some s ∧ P s) (hs : k.session id = some s) (ht : id = i → P t) :
    ∃ s, (k.setSession id t).session i = some s ∧ P s := by
  rw [session_setSession hs]
  by_cases hid : id = i
  · subst hid
    exact ⟨t, Function.update_self .., ht rfl⟩
  · rw [Function.update_of_ne (fun h => hid h.symm)]
    exact h

theorem leaf_session {P : Session → Prop} {k : Kernel} {id : SessionId} {s : Session}
    (h : ∃ s, k.session i = some s ∧ P s) (hs : k.session id = some s) : id = i → P s := by
  rintro rfl
  obtain ⟨t, ht, hP⟩ := h
  rw [hs] at ht
  exact Option.some.inj ht ▸ hP

theorem follows_onSession {id : SessionId} {m : Op Session Error α} (hm : Session.Follows T m) :
    Follows i T (onSession id m) := by
  refine ⟨fun k hk => ?_, fun k hk => ?_⟩
  · cases hs : k.session id with
    | none =>
      rw [exec_onSession_none hs]
      exact hk
    | some s =>
      rw [exec_onSession hs]
      exact leaf_setSession hk hs fun hid => hm.keeps s (leaf_session hk hs hid)
  · have hheal := session_heal (i := i) k id
    have hset := setSession_heal (i := i) k id
    change (repair i T).Ends Fatal ((onSession id m).exec k) ((onSession id m).exec (k.heal i))
    cases hs : k.session id with
    | none =>
      rw [hs] at hheal
      rw [exec_onSession_none hs, exec_onSession_none hheal]
      exact .same _ hk
    | some s =>
      rw [hs] at hheal
      rw [exec_onSession hs, exec_onSession hheal]
      by_cases hid : id = i
      · subst hid
        simp only [if_true] at hset ⊢
        have hends := hm.run s (leaf_session hk hs rfl)
        change (Session.repair T).Ends Fatal (m.exec s) (m.exec s.heal) at hends
        generalize m.exec s = p at hends
        generalize m.exec s.heal = q at hends
        cases hends with
        | same a ht =>
          change (repair id T).Ends Fatal _ (a, (k.heal id).setSession id (Session.heal _))
          rw [hset]
          exact .same a (leaf_setSession hk hs fun _ => ht)
        | @fails _ t _ _ he ht =>
          refine .fails he ⟨t, ?_, ht⟩
          rw [session_setSession hheal, Function.update_self]
      · simp only [if_neg hid] at hset ⊢
        rw [hset]
        exact .same _ (leaf_setSession hk hs fun h => absurd h hid)

theorem follows_modify {f : Kernel → Kernel} (hf : ∀ k, (f k).session = k.session)
    (hfix : ∀ k, f (k.heal i) = (f k).heal i) : Follows i T (modify f) := by
  refine .modify (fun k hk => ?_) (fun k hk => ?_) fun k _ => hfix k
  · change ∃ s, (f k).session i = some s ∧ _
    rwa [hf]
  · change ∃ s, (f k).session i = some s ∧ _
    rwa [hf]

theorem follows_reap (m : Moment) (id : SessionId) : Follows i T (reap m id) :=
  .bind (follows_onSession (Session.follows_reap m)) fun _ =>
    .ite (follows_modify (fun _ => rfl) fun _ => rfl) (.pure _)

theorem follows_onFrame (m : Moment) (id : SessionId) (frame : Frame) :
    Follows i T (onFrame m id frame) := by
  have hattached : ∀ k, ((repair i T).fix k).attached id = k.attached id :=
    fun k => attached_heal k id
  refine .get_bind (fun k _ => by rw [hattached]) fun k => ?_
  refine .bind (follows_onSession (Session.follows_onFrame m frame)) fun _ => ?_
  refine .get_bind (fun l _ => by rw [hattached]) fun l => ?_
  exact .ite (follows_modify (fun _ => rfl) fun _ => rfl) (.pure _)

theorem takeOutbound_heal (k : Kernel) (claimed : List SessionId) :
    (k.heal i).takeOutbound claimed = (k.takeOutbound claimed).heal i := by
  have hcomm := Table.map_comm k.leaves (f := fun id s => if id = i then s.heal else s)
    (g := fun id s => { s with outbound :=
      if id ∈ claimed then [] else s.outbound.filter fun q => !q.frame.isData })
    fun id s => by split <;> rfl
  unfold takeOutbound heal
  rw [hcomm]

theorem spawnLeaf_heal {k : Kernel} (hi : (k.session i).isSome) (s : Session) :
    ((k.heal i).spawnLeaf s).2 = (k.spawnLeaf s).2.heal i := by
  have hsame : SameIds k (k.heal i) := ⟨ids_heal k, rfl⟩
  have halloc := hsame.allocateId
  unfold spawnLeaf
  dsimp only
  rw [halloc]
  generalize allocateId k.leaves k.ids.length k.next = given
  have hinsert : (k.heal i).leaves.insert given.1 s =
      (k.leaves.insert given.1 s).map fun id s => if id = i then s.heal else s := by
    by_cases hmem : given.1 ∈ k.leaves.keys
    · have hmem' : given.1 ∈ (k.heal i).leaves.keys := by
        rwa [show (k.heal i).leaves.keys = k.leaves.keys from ids_heal k]
      rw [Table.insert_of_mem hmem, Table.insert_of_mem hmem']
      rfl
    · have hne : given.1 ≠ i := by
        rintro rfl
        exact hmem ((Table.mem_keys_iff ..).mpr hi)
      rw [Table.map_insert, if_neg hne]
      rfl
  rw [hinsert]
  rfl

end Rill.Kernel
