import Rill.Daemon.Accounts

/-!
# A child's last output

A leaf is read until its child is seen to have exited, and never again. What the child
wrote last is read where the reap that sees the exit finds it read; where it comes first,
what is unread stays so.
-/

namespace Rill.Daemon

open Lib Attach Kernel Function

-- ---------------------------------------------------------------------------
-- A leaf and its child
-- ---------------------------------------------------------------------------

/-- Nothing is known of the child that is not so, and its PTY is open. -/
structure Tended (s : Session) : Prop where
  knows : s.pty.Knows (s.childExit.isSome = true)
  ephemeral : s.ephemeral = false
  master : s.pty.master = true

theorem Tended.spawn (size : Winsize) (turns : List Turn) :
    Tended (.spawn (.spawn size turns) false size) where
  knows := by
    rintro (hmaster | hreaped | hexit)
    · cases hmaster
    · cases hreaped
    · cases hexit
  ephemeral := rfl
  master := rfl

theorem Tended.exited {s : Session} (h : Tended s) (hexit : s.childExit.isSome = true) :
    s.pty.exited.isSome = true := h.knows (.inr (.inr hexit))

theorem releaseRole_pty {s : Session} (h : s.ephemeral = false) (observe : Bool) :
    (releaseRole observe s).pty = s.pty ∧ (releaseRole observe s).ephemeral = s.ephemeral := by
  cases observe with
  | true => exact ⟨rfl, rfl⟩
  | false =>
    refine ⟨?_, rfl⟩
    change (if s.ephemeral then _ else s.pty) = s.pty
    rw [h]
    rfl

theorem leave_pty {s : Session} (h : s.ephemeral = false) (x : Client) (id : SessionId) :
    (x.leave id s).pty = s.pty ∧ (x.leave id s).ephemeral = s.ephemeral := by
  unfold Client.leave
  split
  case isTrue => exact releaseRole_pty h x.observe
  case isFalse => exact ⟨rfl, rfl⟩

theorem attach_ephemeral (s : Session) (m : Moment) (generation : UInt64) (observe : Bool) :
    (s.attach m generation observe).ephemeral = s.ephemeral := by
  unfold Session.attach
  split
  case isTrue => rfl
  case isFalse =>
    split
    case isTrue => rfl
    case isFalse => rfl

/-- An act leaves the PTY of a leaf to its child, sees the exit, or reads. -/
inductive Handles (id : SessionId) : Act → Session → Session → Prop
  | leaves {a : Act} {s t : Session} (hpty : s.pty.Extends t.pty)
    (hexit : t.childExit = s.childExit) (hring : t.ring = s.ring) : Handles id a s t
  | sees {m : Moment} {s t : Session} {status : Int32} (halive : s.childExit = none)
    (hexit : t.childExit = some status)
    (hwait : Pty.tryWait.exec s.pty = (.ok (some status), t.pty)) : Handles id (.reap m id) s t
  | reads {s t : Session} {got : List UInt8} (hgot : got ≠ []) (hgives : s.pty.Gives t.pty got)
    (hexit : t.childExit = s.childExit) : Handles id (.drain id) s t

theorem Evolves.handles {d : Daemon} {id : SessionId} {a : Act} {s t : Session}
    (h : Evolves d id a s t) (htended : Tended s) :
    Handles id a s t ∧ t.ephemeral = s.ephemeral := by
  have hsame : ∀ {t : Session}, t.pty = s.pty → t.childExit = s.childExit → t.ring = s.ring →
      Handles id a s t := fun hpty hexit hring => .leaves (hpty ▸ .refl s.pty) hexit hring
  cases h with
  | steady hsteady =>
    exact ⟨.leaves hsteady.pty hsteady.childExit hsteady.ring, hsteady.ephemeral⟩
  | attach =>
    obtain ⟨hpty, hring, -⟩ := attach_stream s _ _ _
    exact ⟨hsame hpty (attach_childExit s _ _ _) hring, attach_ephemeral s _ _ _⟩
  | release observe =>
    obtain ⟨hpty, hephemeral⟩ := releaseRole_pty htended.ephemeral observe
    exact ⟨hsame hpty (releaseRole_childExit observe s) (releaseRole_stream observe s).2.1, hephemeral⟩
  | exit hsteady halive hwait => exact ⟨.sees halive rfl hwait, hsteady.ephemeral⟩
  | fanout _ hgot hgives => exact ⟨.reads hgot hgives rfl, rfl⟩
  | queue _ hgot _ hgives => exact ⟨.reads hgot hgives rfl, rfl⟩
  | @flush _ qs _ x =>
    cases x with
    | none => exact ⟨hsame rfl rfl rfl, rfl⟩
    | some x =>
      have hephemeral : ({ s with outbound := qs } : Session).ephemeral = false := htended.ephemeral
      obtain ⟨hpty, hkept⟩ := leave_pty hephemeral x id
      exact ⟨hsame hpty (leave_childExit x id _) (leave_stream x id _).2.1, hkept⟩
  | skipResync => exact ⟨hsame rfl rfl rfl, rfl⟩
  | repaint => exact ⟨hsame rfl rfl rfl, rfl⟩

theorem exited_of_tryWait {p q : Pty} {status : Int32} {gone : Prop} (h : p.Knows gone)
    (hwait : Pty.tryWait.exec p = (.ok (some status), q)) : q.exited.isSome = true := by
  have hknows := Pty.Knows.tryWait p h
  rw [hwait] at hknows
  refine hknows (.inr (.inl ?_))
  rw [Pty.exec_tryWait] at hwait
  split at hwait
  case isTrue hreaped =>
    obtain ⟨-, rfl⟩ := Prod.mk.inj hwait
    exact hreaped
  case isFalse =>
    split at hwait
    case isTrue => cases hwait
    case isFalse =>
      obtain ⟨hstatus, rfl⟩ := Prod.mk.inj hwait
      exact Option.isSome_of_eq_some (Except.ok.inj hstatus)

theorem Evolves.tended {d : Daemon} {id : SessionId} {a : Act} {s t : Session}
    (h : Evolves d id a s t) (htended : Tended s) : Tended t := by
  obtain ⟨hhandles, hephemeral⟩ := h.handles htended
  refine ⟨?_, hephemeral.trans htended.ephemeral, ?_⟩
  · cases hhandles with
    | leaves hpty hexit => exact hexit ▸ hpty.knows _ htended.knows
    | sees _ _ hwait => exact fun _ => exited_of_tryWait htended.knows hwait
    | reads _ hgives hexit => exact hexit ▸ hgives.knows _ htended.knows
  · cases hhandles with
    | leaves hpty => exact hpty.master.trans htended.master
    | sees _ _ hwait =>
      have hmaster := (Pty.Extends.tryWait s.pty s.pty (.refl _)).master
      rw [hwait] at hmaster
      exact hmaster.trans htended.master
    | reads _ hgives => exact hgives.master.trans htended.master

theorem tended_runs {G : Daemon → Act → Prop} {turns : List Turn} {size : Winsize}
    {isWorker : Bool} {d₀ d : Daemon} (hbind : Daemon.bind (.spawn size turns) size isWorker = .ok d₀)
    (hrun : Runs Act.Takes G d₀ d) {id : SessionId} {s : Session} (hs : d.session id = some s) :
    Tended s :=
  sessions_runs (K := fun _ s => Tended s)
    (bind_sessions hbind fun _ size turns => .spawn size turns) (fun _ size turns => .spawn size turns)
    (fun _ _ _ _ _ _ _ htended hevolves => hevolves.tended htended) hrun id s hs

-- ---------------------------------------------------------------------------
-- While the exit is not seen
-- ---------------------------------------------------------------------------

/-- The drain loop stops at a leaf when its clients' credit is used up or a read brings
nothing. -/
def Stops (d : Daemon) (id : SessionId) : Prop :=
  ∃ s, d.session id = some s ∧ (window d id s = some 0 ∨ s.Parched)

theorem drainOnce_stops {d d' : Daemon} {id : SessionId} {s : Session} (hs : d.session id = some s)
    (hopen : s.pty.master = true) (halive : s.childExit = none)
    (h : (drainOnce id).exec d = (.ok false, d')) : Stops d id := by
  refine ⟨s, hs, ?_⟩
  rw [drainOnce, Op.exec_get_bind] at h
  split at h
  case isTrue hpath =>
    have hwindow : window d id s = protocol1WriterCredit d.clients id := if_pos hpath
    rw [hwindow]
    rw [drainToClients, Op.exec_get_bind] at h
    dsimp only at h
    split at h
    case isTrue hzero => exact .inl hzero
    case isFalse hcredit =>
      right
      rw [Op.exec_bind, exec_onLeaf hs] at h
      rcases hdrain : (Session.drainPtyAtMost (protocol1WriterCredit d.clients id)).exec s with
        ⟨e | _ | got, t⟩
      · rw [hdrain] at h
        cases h
      · exact Session.drainPtyAtMost_none halive hopen hcredit hdrain
      · -- what was read goes to the clients, and there is another turn
        rw [hdrain] at h
        dsimp only [Except.mapError] at h
        rw [Op.exec_get_bind] at h
        obtain ⟨_, u, -, htrue⟩ := Op.exec_bind_eq_ok.mp h
        cases htrue
  case isFalse hpath =>
    have hwindow : window d id s = some s.credit := if_neg hpath
    rw [hwindow]
    by_cases hcredit : s.credit > 0
    · right
      rw [drainToQueue, Op.exec_bind, exec_onLeaf hs, Op.exec_get_bind, if_pos hcredit] at h
      rcases hread : Session.onPtyReadable.exec s with ⟨e | n, t⟩
      · rw [hread] at h
        cases h
      · rw [hread] at h
        have hmore : decide (n > 0) = false := Except.ok.inj (Prod.mk.inj h).1
        obtain rfl : n = 0 := Nat.eq_zero_of_not_pos (of_decide_eq_false hmore)
        exact Session.onPtyReadable_zero hopen hcredit hread
    · left
      rw [Nat.eq_zero_of_not_pos hcredit]

/-- Every turn of the loop but the last reads something. -/
theorem drainLoop_stops {id : SessionId} {turns : Nat} {d d' : Daemon} (halive : childAlive d id)
    (hopen : ∀ e s, AllRuns Act.Takes d e → e.session id = some s → s.pty.master = true)
    (hturns : backlog d id < turns) (h : (drainLoop turns id).exec d = (.ok (), d')) :
    ∃ e, AllRuns Act.Takes d e ∧ Stops e id ∧ AllRuns Act.Takes e d' := by
  induction turns generalizing d with
  | zero => cases hturns
  | succ turns ih =>
    obtain ⟨more, d₁, honce, hrest⟩ := Op.exec_bind_eq_ok.mp h
    have htakes : Act.Takes d (.drain id) d₁ :=
      ⟨halive, Op.exec_bind_eq_ok.mpr ⟨more, d₁, honce, rfl⟩⟩
    cases more with
    | false =>
      obtain ⟨s, hs, hexit⟩ := childAlive_iff.mp halive
      obtain rfl : d₁ = d' := (Prod.mk.inj hrest).2
      exact ⟨d, .refl, drainOnce_stops hs (hopen d s .refl hs) hexit honce, htakes.allRuns⟩
    | true =>
      have hless := (drainOnce_ok honce).2 rfl
      obtain ⟨e, hbefore, hstops, hafter⟩ := ih (htakes.childAlive rfl halive)
        (fun e s hrun => hopen e s (htakes.allRuns.trans hrun)) (by omega) hrest
      exact ⟨e, htakes.allRuns.trans hbefore, hstops, hafter⟩

theorem drainLeaf_stops {id : SessionId} {d d' : Daemon} (halive : childAlive d id)
    (hopen : ∀ e s, AllRuns Act.Takes d e → e.session id = some s → s.pty.master = true)
    (h : (drainLeaf id).exec d = (.ok (), d')) :
    ∃ e, AllRuns Act.Takes d e ∧ Stops e id ∧ AllRuns Act.Takes e d' := by
  obtain ⟨s, hs, -⟩ := childAlive_iff.mp halive
  rw [drainLeaf, Op.exec_get_bind, hs] at h
  refine drainLoop_stops halive hopen ?_ h
  rw [backlog_eq hs]
  exact Nat.lt_succ_self _

/-- A leaf that is found readable is read till then. -/
theorem pollIo_stops {p : Poll} {id : SessionId} {d d' : Daemon} (halive : childAlive d id)
    (hreadable : p.readable id = true)
    (hopen : ∀ e s, AllRuns Act.Takes d e → e.session id = some s → s.pty.master = true)
    (h : (pollIo p).exec d = (.ok (), d')) :
    ∃ e, AllRuns Act.Takes d e ∧ Stops e id ∧ AllRuns Act.Takes e d' := by
  rw [pollIo, Op.exec_get_bind] at h
  dsimp only at h
  have hid : id ∈ (p.order d.kernel.ids).filter fun id => childAlive d id && p.readable id := by
    obtain ⟨s, hs, -⟩ := childAlive_iff.mp halive
    refine List.mem_filter.mpr ⟨?_, by rw [halive, hreadable]; rfl⟩
    exact (p.perm _).mem_iff.mpr ((Table.mem_keys_iff _ _).mpr (Option.isSome_of_eq_some hs))
  have hpolled : Alive ((p.order d.kernel.ids).filter fun id => childAlive d id && p.readable id) d := by
    intro i hi
    rw [List.mem_filter, Bool.and_eq_true] at hi
    exact hi.2.1
  generalize ((p.order d.kernel.ids).filter fun id => childAlive d id && p.readable id) = ids
    at h hid hpolled
  split at h
  case isTrue => cases h
  case isFalse =>
    obtain ⟨_, d₁, haccept, h⟩ := Op.exec_bind_eq_ok.mp h
    obtain ⟨hrun₁, halive₁⟩ := acts_acceptOne ids p.accept d () d₁ hpolled haccept
    split at h
    case isTrue => cases h
    case isFalse =>
      obtain ⟨_, d₂, htabs, h⟩ := Op.exec_bind_eq_ok.mp h
      obtain ⟨hrun₂, halive₂⟩ := Op.Traces.forM AllRuns.refl AllRuns.trans
        (fun tab _ => acts_spawnTabLeaf ids tab) d₁ () d₂ halive₁ htabs
      obtain ⟨_, d₃, hread, h⟩ := Op.exec_bind_eq_ok.mp h
      have hclients : Acts ids ((List.range d.clients.length).forM fun idx =>
          if p.ready idx then readClient (p.frameAt idx) idx else pure ()) := by
        refine Op.Traces.forM AllRuns.refl AllRuns.trans fun idx _ => ?_
        split
        case isTrue => exact acts_readClient ids _ idx
        case isFalse => exact Op.Traces.pure AllRuns.refl _
      obtain ⟨hrun₃, halive₃⟩ := hclients d₂ () d₃ halive₂ hread
      obtain ⟨l₁, l₂, u, v, rfl, hl₁, hleaf, hl₂⟩ := Op.exec_forM_of_mem hid h
      have hwalk : ∀ l : List SessionId, l ⊆ l₁ ++ id :: l₂ → Acts (l₁ ++ id :: l₂) (l.forM drainLeaf) :=
        fun l hl => Op.Traces.forM AllRuns.refl AllRuns.trans fun i hi => acts_drainLeaf (hl hi)
      obtain ⟨hrun₄, halive₄⟩ := hwalk l₁ (List.subset_append_left _ _) d₃ () u halive₃ hl₁
      have hbefore := hrun₁.trans (hrun₂.trans (hrun₃.trans hrun₄))
      obtain ⟨e, hstart, hstops, hend⟩ := drainLeaf_stops (halive₄ id hid)
        (fun e s hrun => hopen e s (hbefore.trans hrun)) hleaf
      have halive₅ := (acts_drainLeaf hid u () v halive₄ hleaf).2
      have hlast : l₂ ⊆ l₁ ++ id :: l₂ := fun i hi => List.mem_append_right _ (List.mem_cons_of_mem _ hi)
      exact ⟨e, hbefore.trans hstart, hstops, hend.trans (hwalk l₂ hlast v () d' halive₅ hl₂).1⟩

-- ---------------------------------------------------------------------------
-- After the exit was seen
-- ---------------------------------------------------------------------------

/-- `t` is `s` with nothing more read, of a child that is known to be dead. -/
structure Sealed (s t : Session) : Prop where
  exit : t.childExit = s.childExit
  unread : t.pty.unread = s.pty.unread
  taken : t.pty.taken = s.pty.taken
  ring : t.ring = s.ring

/-- Only a leaf whose child is not known to be dead is read. -/
theorem Evolves.sealed {d : Daemon} {id : SessionId} {a : Act} {s t : Session}
    (h : Evolves d id a s t) (htended : Tended s) (hs : d.session id = some s)
    (henabled : a.enabled d) (hexit : s.childExit.isSome = true) : Sealed s t := by
  cases (h.handles htended).1 with
  | leaves hpty hsame hring =>
    exact ⟨hsame, (hpty.exited (htended.exited hexit)).2, hpty.taken, hring⟩
  | sees halive =>
    rw [halive] at hexit
    cases hexit
  | reads =>
    obtain ⟨s', hs', halive⟩ := childAlive_iff.mp henabled
    obtain rfl := Option.some.inj (hs.symm.trans hs')
    rw [halive] at hexit
    cases hexit

theorem sealed_runs {d d' : Daemon} (hrun : AllRuns Act.Takes d d') {id : SessionId} {s : Session}
    (hs : d.session id = some s) (htended : Tended s) (hexit : s.childExit.isSome = true) :
    ∃ t, d'.session id = some t ∧ Tended t ∧ Sealed s t := by
  induction hrun with
  | refl => exact ⟨s, hs, htended, rfl, rfl, rfl, rfl⟩
  | tail _ hact ih =>
    obtain ⟨a, -, htakes⟩ := hact
    obtain ⟨t, ht, htended', hsealed⟩ := ih
    obtain ⟨u, hu⟩ := htakes.effect.1.keepsLeaf ht
    rcases htakes.effect.1.evolves hu with ⟨t', ht', hevolves⟩ | ⟨hnone, -⟩
    · obtain rfl := Option.some.inj (ht.symm.trans ht')
      have hnext := hevolves.sealed htended' ht htakes.1 (hsealed.exit ▸ hexit)
      exact ⟨u, hu, hevolves.tended htended', hnext.exit.trans hsealed.exit,
        hnext.unread.trans hsealed.unread, hnext.taken.trans hsealed.taken,
        hnext.ring.trans hsealed.ring⟩
    · rw [ht] at hnone
      cases hnone

-- ---------------------------------------------------------------------------
-- The reap that sees it
-- ---------------------------------------------------------------------------

def seesExit (s : Session) : Bool :=
  s.childExit.isNone && (Pty.tryWait.exec s.pty).1.toOption.any Option.isSome

/-- The reap that sees the exit finds nothing unread. -/
abbrev ReapsRead (d : Daemon) (id : SessionId) : Prop :=
  ∀ s ∈ d.session id, seesExit s = true → (Pty.tryWait.exec s.pty).2.unread = []

def ReadFirst (d : Daemon) : Act → Prop
  | .reap _ id => ReapsRead d id
  | _ => True

instance (d : Daemon) : (a : Act) → Decidable (ReadFirst d a)
  | .reap _ id => inferInstanceAs (Decidable (ReapsRead d id))
  | .frame .. | .accept _ | .spawn _ | .fetch _ | .drain _ | .flush | .resync _ => instDecidableTrue

theorem seesExit_of_wait {s : Session} {status : Int32} {q : Pty} (halive : s.childExit = none)
    (hwait : Pty.tryWait.exec s.pty = (.ok (some status), q)) : seesExit s = true := by
  rw [seesExit, halive, hwait]
  rfl

/-- In every run whose reaps come after the last read, no leaf has anything unread of a child
that is known to be dead. -/
theorem read_runs {turns : List Turn} {size : Winsize} {isWorker : Bool} {d₀ d : Daemon}
    (hbind : Daemon.bind (.spawn size turns) size isWorker = .ok d₀)
    (hrun : Runs Act.Takes ReadFirst d₀ d) {id : SessionId} {s : Session}
    (hs : d.session id = some s) (hexit : s.childExit.isSome = true) : s.pty.unread = [] := by
  induction hrun generalizing id s with
  | refl =>
    have hnone : s.childExit = none := bind_sessions (K := fun _ s => s.childExit = none) hbind
      (fun _ _ _ => rfl) id s hs
    rw [hnone] at hexit
    cases hexit
  | tail hrun hact ih =>
    obtain ⟨a, hguard, htakes⟩ := hact
    rcases htakes.effect.1.evolves hs with ⟨r, hr, hevolves⟩ | ⟨-, turns, rfl⟩
    · have htended := tended_runs hbind hrun hr
      by_cases hdead : r.childExit.isSome = true
      · rw [(hevolves.sealed htended hr htakes.1 hdead).unread]
        exact ih hr hdead
      · cases (hevolves.handles htended).1 with
        | leaves _ hsame => exact absurd (hsame ▸ hexit) hdead
        | sees halive _ hwait =>
          have hread := hguard r hr (seesExit_of_wait halive hwait)
          rwa [hwait] at hread
        | reads _ _ hsame => exact absurd (hsame ▸ hexit) hdead
    · cases hexit

theorem reap_sees {s : Session} (h : seesExit s = true) (m : Moment) :
    ∃ t, (Session.reap m).exec s = (.ok true, t) ∧ t.childExit.isSome = true ∧
      t.pty = (Pty.tryWait.exec s.pty).2 ∧ t.ephemeral = s.ephemeral := by
  rw [seesExit, Bool.and_eq_true, Option.isNone_iff_eq_none] at h
  obtain ⟨halive, hsees⟩ := h
  rcases hwait : Pty.tryWait.exec s.pty with ⟨e | _ | status, q⟩
  · rw [hwait] at hsees
    cases hsees
  · rw [hwait] at hsees
    cases hsees
  · have hexit : (s.expireInputLeaseIfDue m).childExit = none := halive
    have hrun : (Session.onPty Pty.tryWait).exec (s.expireInputLeaseIfDue m) =
        (.ok (some status), { s.expireInputLeaseIfDue m with pty := q }) := by
      change ((Pty.tryWait.exec s.pty).1, { s.expireInputLeaseIfDue m with
        pty := (Pty.tryWait.exec s.pty).2 }) = _
      rw [hwait]
    rw [Session.reap, Op.exec_modify_bind, Session.pollChild, Op.exec_get_bind, hexit,
      if_neg (by simp), Op.exec_bind_ok hrun]
    exact ⟨_, rfl, rfl, rfl, rfl⟩

/-- Where it comes before the last read, what is unread is never read. -/
theorem reap_strands {d d' d'' : Daemon} {m : Moment} {id : SessionId} {s : Session}
    (htakes : Act.Takes d (.reap m id) d') (hs : d.session id = some s) (htended : Tended s)
    (hsees : seesExit s = true) (hunread : (Pty.tryWait.exec s.pty).2.unread ≠ [])
    (hrun : AllRuns Act.Takes d' d'') :
    ∃ t, d''.session id = some t ∧ t.childExit.isSome = true ∧ t.pty.unread ≠ [] := by
  obtain ⟨t, hreap, hexit, hpty, -⟩ := reap_sees hsees m
  have ht : d'.session id = some t := by
    have hact : (onKernel (Kernel.reap m id)).exec d = (.ok (), d') := htakes.2
    rw [exec_onKernel] at hact
    obtain ⟨-, rfl⟩ := Prod.mk.inj hact
    rw [session_setKernel, (Kernel.reap_spec hs m).2, hreap, update_self]
  have htended' : Tended t := by
    rcases htakes.effect.1.evolves ht with ⟨s', hs', hevolves⟩ | ⟨hnone, -⟩
    · obtain rfl := Option.some.inj (hs.symm.trans hs')
      exact hevolves.tended htended
    · rw [hs] at hnone
      cases hnone
  obtain ⟨u, hu, -, hsealed⟩ := sealed_runs hrun ht htended' hexit
  exact ⟨u, hu, hsealed.exit ▸ hexit, by rw [hsealed.unread, hpty]; exact hunread⟩

/-- In every run whose reaps come after the last read: nothing is unread of a child that is known
to be dead, the ring has the end of all that was read, and nothing more is; a leaf that a step
finds readable is read till its clients' credit is used up or a read brings nothing. A reap that
comes before leaves what is unread for good. -/
theorem last_output_read {turns : List Turn} {size : Winsize} {isWorker : Bool} {d₀ d : Daemon}
    (hbind : Daemon.bind (.spawn size turns) size isWorker = .ok d₀)
    (hrun : Runs Act.Takes ReadFirst d₀ d) :
    (∀ id s, d.session id = some s → s.history = s.pty.taken.drop (s.pty.taken.length - ringCap) ∧
      (s.childExit.isSome = true → s.pty.unread = [] ∧
        ∀ d', AllRuns Act.Takes d d' → ∃ t, d'.session id = some t ∧ Sealed s t)) ∧
      (∀ p d', (step p).exec d = (.ok (), d') → ∃ d₁, (reapAll p).exec d = (.ok (), d₁) ∧
        ∀ id, childAlive d₁ id = true → p.readable id = true →
          ∃ e, AllRuns Act.Takes d e ∧ Stops e id ∧ AllRuns Act.Takes e d') ∧
      ∀ m id s d', Act.Takes d (.reap m id) d' → d.session id = some s → seesExit s = true →
        (Pty.tryWait.exec s.pty).2.unread ≠ [] → ∀ d'', AllRuns Act.Takes d' d'' →
          ∃ t, d''.session id = some t ∧ t.childExit.isSome = true ∧ t.pty.unread ≠ [] := by
  have hany : AllRuns Act.Takes d₀ d := hrun.mono fun _ _ _ => trivial
  refine ⟨fun id s hs => ⟨?_, fun hexit => ⟨read_runs hbind hrun hs hexit, fun d' hlater => ?_⟩⟩, ?_, ?_⟩
  · have hhistory := (counted_runs hbind hrun hs).history
    rwa [List.take_length] at hhistory
  · obtain ⟨t, ht, -, hsealed⟩ := sealed_runs hlater hs (tended_runs hbind hrun hs) hexit
    exact ⟨t, ht, hsealed⟩
  · intro p d' hstep
    obtain ⟨_, d₁, hreap, hrest⟩ := Op.exec_bind_eq_ok.mp hstep
    obtain ⟨_, d₂, hpoll, hrest⟩ := Op.exec_bind_eq_ok.mp hrest
    obtain ⟨_, d₃, hflush, hresync⟩ := Op.exec_bind_eq_ok.mp hrest
    have hreaps := reapAll_runs hreap
    refine ⟨d₁, hreap, fun id halive hreadable => ?_⟩
    obtain ⟨e, hbefore, hstops, hafter⟩ := pollIo_stops halive hreadable (fun e s hlater hs =>
      (tended_runs hbind (hany.trans (hreaps.trans hlater)) hs).master) hpoll
    have hflushes : AllRuns Act.Takes d₂ d₃ := Act.Takes.allRuns (a := .flush) ⟨trivial, hflush⟩
    exact ⟨e, hreaps.trans hbefore, hstops, hafter.trans (hflushes.trans (maybeResync_runs hresync))⟩
  · exact fun m id s d' htakes hs hsees hunread d'' hlater =>
      reap_strands htakes hs (tended_runs hbind hrun hs) hsees hunread hlater

/-- The child's output is read, and then its exit is seen. -/
theorem last_output_read_first :
    ∃ d₀ d, Daemon.bind (.spawn ⟨1, 1, 0, 0⟩ [⟨[97, 98], some 7, none, none⟩]) ⟨1, 1, 0, 0⟩ true =
        .ok d₀ ∧ Runs Act.Takes ReadFirst d₀ d ∧
      ∃ s, d.session ⟨1⟩ = some s ∧ s.childExit = some 7 ∧ s.history = [97, 98] ∧
        s.pty.unread = [] := by
  obtain ⟨d₀, d, hbind, hrun, hfound⟩ := exists_follow (G := ReadFirst)
    [⟨[97, 98], some 7, none, none⟩] ⟨1, 1, 0, 0⟩ true [.drain ⟨1⟩, .reap ⟨0, 3600⟩ ⟨1⟩]
    (p := fun d => (d.session ⟨1⟩).any fun s => s.childExit = some 7 && s.history = [97, 98])
    (by decide)
  simp only [Bool.and_eq_true, Option.any_eq_true, decide_eq_true_eq] at hfound
  obtain ⟨s, hs, hexit, hhistory⟩ := hfound
  exact ⟨d₀, d, hbind, hrun, s, hs, hexit, hhistory,
    (((last_output_read hbind hrun).1 ⟨1⟩ s hs).2 (by rw [hexit]; rfl)).1⟩

/-- The child writes and exits between two steps, and the next step reaps it first. -/
theorem last_output_lost :
    ∃ d, after [⟨[97, 98], some 7, none, none⟩] ⟨1, 1, 0, 0⟩ true
        [{ Poll.quiet with readable := fun _ => true }] = .ok d ∧
      ∃ s, d.session ⟨1⟩ = some s ∧ s.childExit = some 7 ∧ s.history = [] ∧
        ∀ d', AllRuns Act.Takes d d' → ∃ t, d'.session ⟨1⟩ = some t ∧
          t.pty.unread = [97, 98] ∧ t.history = [] := by
  have hfound : (after [⟨[97, 98], some 7, none, none⟩] ⟨1, 1, 0, 0⟩ true
      [{ Poll.quiet with readable := fun _ => true }]).toOption.any (fun d =>
        (d.session ⟨1⟩).any fun s => s.childExit = some 7 && s.history = [] &&
          s.pty.unread = [97, 98]) = true := by decide
  cases hafter : after [⟨[97, 98], some 7, none, none⟩] ⟨1, 1, 0, 0⟩ true
      [{ Poll.quiet with readable := fun _ => true }] with
  | error e =>
    rw [hafter] at hfound
    cases hfound
  | ok d =>
    rw [hafter] at hfound
    change (d.session ⟨1⟩).any _ = true at hfound
    simp only [Bool.and_eq_true, Option.any_eq_true, decide_eq_true_eq] at hfound
    obtain ⟨s, hs, ⟨hexit, hhistory⟩, hunread⟩ := hfound
    refine ⟨d, rfl, s, hs, hexit, hhistory, fun d' hlater => ?_⟩
    have htended : Tended s := by
      cases after_reachable hafter with
      | mk hbind hrun => exact tended_runs hbind hrun hs
    obtain ⟨t, ht, -, hsealed⟩ := sealed_runs hlater hs htended (by rw [hexit]; rfl)
    refine ⟨t, ht, hsealed.unread.trans hunread, ?_⟩
    rw [Session.history, hsealed.ring]
    exact hhistory

end Rill.Daemon
