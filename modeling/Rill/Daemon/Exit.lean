import Rill.Daemon.Repaints

/-!
# The exit of a child

An exit is queued when it is seen, if someone listens, and again by the next writer's
ATTACH; what is queued goes to everyone who is on the leaf when it is flushed. Where
each of these finds nobody who was told before and nobody who is not, every client is
told once.
-/

namespace Rill.Daemon

open Lib Attach Kernel

def isExit (q : Queued) : Bool := q.frame.isExit

theorem countP_isExit {qs : List Queued} (h : ∀ q ∈ qs, isExit q = false) : qs.countP isExit = 0 :=
  List.countP_eq_zero.mpr fun q hq => Bool.eq_false_iff.mp (h q hq)

/-- The client has the exit of its leaf's child, once that was seen, in the outbox or in the
queue of its leaf: in one of them, and once. -/
structure Told (c : Client) (s : Session) : Prop where
  once : c.since.countP isExit + s.outbound.countP isExit = s.childExit.isSome.toNat
  since : ∀ q ∈ c.since, isExit q = true → ∃ status, s.childExit = some status ∧
    q = ⟨.exit status, .control⟩

theorem Queueable.exit_of {s : Session} {q : Queued} (h : Queueable s q) (hq : isExit q = true) :
    ∃ status, s.childExit = some status ∧ q = ⟨.exit status, .control⟩ := by
  cases h with
  | exit hexit => exact ⟨_, hexit, rfl⟩
  | refused | live | repaint => cases hq

/-- Nothing is seen, and neither sent nor queued, that tells of an exit. -/
theorem Told.quiet {c c' : Client} {s t : Session} {qs : List Queued} (h : Told c s)
    (hexit : t.childExit = s.childExit) (hqueue : t.outbound.countP isExit = s.outbound.countP isExit)
    (hsince : c'.since = c.since ++ qs) (hqs : ∀ q ∈ qs, isExit q = false) : Told c' t where
  once := by
    rw [hsince, List.countP_append, countP_isExit hqs, hqueue, hexit]
    exact h.once
  since q hq htells := by
    rw [hsince] at hq
    rw [hexit]
    rcases List.mem_append.mp hq with hold | hnew
    · exact h.since q hold htells
    · rw [hqs q hnew] at htells
      cases htells

theorem Told.queue {c : Client} {s t : Session} (h : Told c s) (hexit : t.childExit = s.childExit)
    (hqueue : t.outbound.countP isExit = s.outbound.countP isExit) : Told c t :=
  h.quiet hexit hqueue (List.append_nil _).symm nofun

theorem exits_append {qs rs : List Queued} (h : ∀ q ∈ rs, isExit q = false) :
    (qs ++ rs).countP isExit = qs.countP isExit := by
  rw [List.countP_append, countP_isExit h, Nat.add_zero]

theorem exits_kept (qs : List Queued) :
    (qs.filter fun q => !q.frame.isData).countP isExit = qs.countP isExit := by
  rw [List.countP_filter]
  refine List.countP_congr fun q _ => ?_
  cases hq : q.frame with
  | exit => simp [isExit, hq, Frame.isExit, Frame.isData]
  | data | credit | resize | attach | refused | checkpoint | delta | resyncRequest =>
    simp [isExit, hq, Frame.isExit]

theorem exits_due (c : Client) (qs : List Queued) :
    (c.due qs).countP isExit = qs.countP isExit := by
  rw [Client.due, List.countP_filter]
  refine List.countP_congr fun q _ => ?_
  cases hq : q.frame with
  | exit => simp [isExit, hq, Frame.isExit, Frame.isData]
  | data | credit | resize | attach | refused | checkpoint | delta | resyncRequest =>
    simp [isExit, hq, Frame.isExit]

theorem exits_releaseRole (observe : Bool) (s : Session) :
    (releaseRole observe s).outbound.countP isExit = s.outbound.countP isExit := by
  cases observe with
  | true => rfl
  | false => exact exits_kept s.outbound

theorem Left.exits {d : Daemon} {id : SessionId} {c : Client} {s t : Session}
    (h : Left d id c s t) : t.outbound.countP isExit = s.outbound.countP isExit := by
  rcases h with rfl | ⟨x, -, -, rfl⟩
  · rfl
  · exact exits_releaseRole x.observe s

theorem Left.childExit {d : Daemon} {id : SessionId} {c : Client} {s t : Session}
    (h : Left d id c s t) : t.childExit = s.childExit := by
  rcases h with rfl | ⟨x, -, -, rfl⟩
  · rfl
  · exact releaseRole_childExit x.observe s

-- ---------------------------------------------------------------------------
-- What tells everyone once
-- ---------------------------------------------------------------------------

/-- The reap of a leaf with clients that sees the exit finds that someone listens. -/
abbrev ReapsHeard (d : Daemon) (id : SessionId) : Prop :=
  ∀ s ∈ d.session id, s.childExit = none →
    (s.pty.reaped = none → s.pty.turn.2.exited.isSome = true) →
    (∃ c ∈ d.clients, c.leaf = some id) → s.hasListeners = true

/-- An ATTACH tells of an exit where nobody else is on the leaf, none is queued, and the role
is new. Otherwise the role is not new, or just one is queued if the exit was seen. -/
abbrev JoinsTold (d : Daemon) (idx : Nat) (id : SessionId) (s : Session) (protocol : UInt8)
    (observe : Bool) : Prop :=
  if observe = false ∧ s.attached = false ∧ s.childExit.isSome = true then
    (∀ q ∈ s.outbound, isExit q = false) ∧ (∀ x ∈ d.clients.eraseIdx idx, x.leaf ≠ some id) ∧
      ∀ c ∈ d.clients[idx]?, c.hasRole id observe protocol = false
  else ∀ c ∈ d.clients[idx]?, c.hasRole id observe protocol = true ∨
    s.outbound.countP isExit = s.childExit.isSome.toNat

/-- So does every ATTACH that is let through. -/
abbrev AttachesTold (d : Daemon) (idx : Nat) (sessionId : Option UInt64) (protocol : UInt8)
    (observe : Bool) : Prop :=
  ∀ id ∈ d.resolveAttach sessionId, ∀ s ∈ d.session id, Frame.protocolSupported protocol = true →
    (s.attached = true → observe = false → d.leafOf idx = some id) →
      JoinsTold d idx id s protocol observe

abbrev FlushesExits (d : Daemon) : Prop :=
  ∀ i < d.clients.length, ∀ x ∈ d.clients[i]?, failing d x = true →
    ∀ c ∈ d.clients.drop (i + 1), ∀ q ∈ owed d c, isExit q = false

def TellsOnce (d : Daemon) : Act → Prop
  | .reap _ id => ReapsHeard d id
  | .frame _ idx (.attach _ sessionId protocol observe) =>
    AttachesTold d idx sessionId protocol observe
  | .flush => FlushesExits d
  | _ => True

instance (d : Daemon) : (a : Act) → Decidable (TellsOnce d a)
  | .reap _ id => inferInstanceAs (Decidable (ReapsHeard d id))
  | .frame _ idx (.attach _ sessionId protocol observe) =>
    inferInstanceAs (Decidable (AttachesTold d idx sessionId protocol observe))
  | .flush => inferInstanceAs (Decidable (FlushesExits d))
  | .frame _ _ (.credit _) | .frame _ _ (.data _) | .frame _ _ (.resize ..) | .frame _ _ (.exit _)
  | .frame _ _ (.refused _) | .frame _ _ (.checkpoint ..) | .frame _ _ (.delta ..)
  | .frame _ _ .resyncRequest | .accept _ | .spawn _ | .fetch _ | .drain _ | .resync _ =>
    instDecidableTrue

theorem exits_attach {s : Session} {observe : Bool}
    (h : ¬ (observe = false ∧ s.attached = false ∧ s.childExit.isSome = true)) (m : Moment)
    (generation : UInt64) :
    (s.attach m generation observe).outbound.countP isExit = s.outbound.countP isExit := by
  rw [attach_outbound]
  refine exits_append fun q hq => ?_
  split at hq
  case isTrue => cases hq
  case isFalse hobserve =>
    split at hq
    case isTrue =>
      obtain rfl := List.mem_singleton.mp hq
      rfl
    case isFalse hattached =>
      rw [Bool.not_eq_true] at hobserve hattached
      obtain ⟨status, hstatus, -⟩ := List.mem_map.mp hq
      exact absurd ⟨hobserve, hattached, Option.isSome_of_mem (Option.mem_toList.mp hstatus)⟩ h

theorem exits_claim {s : Session} (hattached : s.attached = false)
    (hexit : s.childExit.isSome = true) (m : Moment) (generation : UInt64) :
    (s.attach m generation false).outbound.countP isExit = s.outbound.countP isExit + 1 := by
  obtain ⟨status, hstatus⟩ := Option.isSome_iff_exists.mp hexit
  rw [attach_outbound, if_neg Bool.false_ne_true, hattached, if_neg Bool.false_ne_true,
    Session.replay, hstatus, List.countP_append]
  rfl

/-- A client that was sent nothing since its attach which tells of an exit is told what is queued. -/
theorem Told.fresh {c : Client} {s : Session} (hsince : ∀ q ∈ c.since, isExit q = false)
    (hqueue : s.outbound.countP isExit = s.childExit.isSome.toNat) : Told c s where
  once := by rw [countP_isExit hsince, hqueue, Nat.zero_add]
  since q hq htells := by
    rw [hsince q hq] at htells
    cases htells

theorem Told.joins {d : Daemon} {idx : Nat} {id : SessionId} {c c' : Client} {s : Session} {m : Moment}
    {generation : UInt64} {protocol : UInt8} {observe : Bool} {shown : List Queued}
    (hc : d.clients[idx]? = some c) (hs : d.session id = some s)
    (htold : JoinsTold d idx id s protocol observe) (hshown : Shown s observe protocol shown)
    (hsent : (c.attachTo id observe protocol s.pty.taken.length).Sent c' shown)
    (hle : On d id c s → c.attachedAt ≤ c.log.length) (hbefore : On d id c s → Told c s) :
    Told c' (s.attach m generation observe) := by
  have hexit := attach_childExit s m generation observe
  have hsince := hsent.since_attachTo fun hrole => hle (.of_hasRole hc hs hrole)
  have hnew : ∀ q ∈ shown, isExit q = false := fun q hq => (hshown.repaint q hq).1
  unfold JoinsTold at htold
  split at htold
  case isTrue htells =>
    -- the role is new, and all that it is told is what the ATTACH queues
    obtain ⟨rfl, hattached, hsome⟩ := htells
    obtain ⟨hnone, -, hrole⟩ := htold
    rw [if_neg (Bool.eq_false_iff.mp (hrole c hc)), List.nil_append] at hsince
    refine .fresh (hsince ▸ hnew) ?_
    rw [exits_claim hattached hsome, countP_isExit hnone, hexit, hsome]
    rfl
  case isFalse hsilent =>
    have hqueue := exits_attach hsilent m generation
    by_cases hrole : c.hasRole id observe protocol = true
    · rw [if_pos hrole] at hsince
      exact (hbefore (.of_hasRole hc hs hrole)).quiet hexit hqueue hsince hnew
    · rw [if_neg hrole, List.nil_append] at hsince
      refine .fresh (hsince ▸ hnew) ?_
      rw [hqueue, hexit]
      exact (htold c hc).resolve_left hrole

/-- The exit is seen, and queued for whoever listens. -/
theorem Told.exit {c : Client} {s t : Session} {status : Int32} (h : Told c s) (hsteady : s.Steady t)
    (halive : s.childExit = none) (hlistens : s.hasListeners = true) :
    Told c (t.observeExit status) := by
  have hheard : t.hasListeners = true := by
    rw [Session.hasListeners, Session.attached, hsteady.attachGeneration, hsteady.observers]
    exact hlistens
  have hqueue : (t.observeExit status).outbound = s.outbound ++ [⟨.exit status, .control⟩] := by
    rw [← hsteady.outbound]
    exact if_pos hheard
  constructor
  · have hbefore := h.once
    rw [halive] at hbefore
    rw [hqueue, List.countP_append, ← Nat.add_assoc, hbefore]
    rfl
  · intro q hq htells
    obtain ⟨status', hstatus', -⟩ := h.since q hq htells
    rw [halive] at hstatus'
    cases hstatus'

theorem Told.flush {d : Daemon} {id : SessionId} {c c' : Client} {s t : Session} (h : Told c s)
    (hqueueable : ∀ q ∈ s.outbound, Queueable s q) (hsince : c'.since = c.since ++ c.due s.outbound)
    (hleft : Left d id c { s with outbound := [] } t) : Told c' t := by
  constructor
  · rw [hsince, List.countP_append, exits_due, hleft.exits, hleft.childExit]
    exact h.once
  · intro q hq htells
    rw [hleft.childExit]
    rw [hsince] at hq
    rcases List.mem_append.mp hq with hold | hnew
    · exact h.since q hold htells
    · exact (hqueueable q (List.mem_of_mem_filter hnew)).exit_of htells

/-- In every run in which each act tells everyone once, everyone is. -/
theorem told_runs {turns : List Turn} {size : Winsize} {isWorker : Bool} {d₀ d : Daemon}
    (hbind : Daemon.bind (.spawn size turns) size isWorker = .ok d₀)
    (hrun : Runs Act.Takes TellsOnce d₀ d) {id : SessionId} {c : Client} {s : Session}
    (h : On d id c s) : Told c s := by
  have h₀ := (bind_ok hbind).1
  refine moved_runs (I := fun _ c s => Told c s) h₀ ?_ hrun id c s h
  intro d a id c' s' hrun hguard hall hmoved
  have hle : ∀ {c s}, On d id c s → c.attachedAt ≤ c.log.length := attachedAt_runs h₀ hrun
  cases hmoved with
  | @keep _ f c _ s _ qs h hsteady hsent hqs =>
    refine (hall id c s h).quiet hsteady.childExit (by rw [hsteady.outbound])
      (hsent.since_credit (hle h)) fun q hq => ?_
    obtain ⟨reason, rfl⟩ := hqs q hq
    rfl
  | @joins m idx generation sessionId protocol observe c _ s shown hc hs hsupported hid hmine hshown hsent =>
    have htold : JoinsTold d idx id s protocol observe := hguard id hid s hs hsupported
      fun hheld hobserve => hmine hheld (Bool.eq_false_iff.mp hobserve)
    exact .joins hc hs htold hshown hsent hle (hall id c s)
  | @joined m idx generation sessionId protocol observe _ s h hother hsupported hid hmine =>
    have htold : JoinsTold d idx id s protocol observe := hguard id hid s h.session hsupported
      fun hheld hobserve => hmine hheld (Bool.eq_false_iff.mp hobserve)
    unfold JoinsTold at htold
    split at htold
    case isTrue =>
      obtain ⟨j, hne, hj⟩ := hother
      exact absurd h.leaf (htold.2.1 c' (List.mem_eraseIdx_iff_getElem?.mpr ⟨j, hne, hj⟩))
    case isFalse hsilent =>
      exact (hall id c' s h).queue (attach_childExit s _ _ _) (exits_attach hsilent _ _)
  | left h hleft => exact (hall id c' _ h).queue hleft.childExit hleft.exits
  | @exit m _ s t status h hsteady halive hseen =>
    refine (hall id c' s h).exit hsteady halive ?_
    exact hguard s h.session halive (fun hnone => by rw [hseen hnone]; rfl) ⟨c', h.mem, h.leaf⟩
  | @fanout c _ s p got h _ _ _ _ hsent =>
    refine (hall id c s h).quiet rfl rfl (hsent.since_spend (hle h)) fun q hq => ?_
    obtain rfl := List.mem_singleton.mp hq
    dsimp only [Client.liveFrame, isExit]
    split
    case isTrue => rfl
    case isFalse => rfl
  | short h => exact (hall id c' _ h).queue rfl rfl
  | @queue _ s p got h =>
    refine (hall id c' s h).queue rfl ?_
    change (if ({ s with pty := p } : Session).hasListeners then _ else _ : List Queued).countP _ = _
    split
    case isTrue => exact exits_append fun q hq => List.mem_singleton.mp hq ▸ rfl
    case isFalse => rfl
  | flush h hsent hleft =>
    exact (hall id _ _ h).flush (queueable_runs hbind hrun h.session) (hsent.since (hle h)) hleft
  | lost h hclients hstop hbehind hleft =>
    refine (hall id c' _ h).queue hleft.childExit ?_
    have hnone := countP_isExit (behind_stop hguard hclients hstop hbehind)
    rw [owed, h.queued, exits_due] at hnone
    rw [hleft.exits, hnone]
    rfl
  | skipResync h => exact (hall id c' _ h).queue rfl rfl
  | repaint h =>
    exact (hall id c' _ h).queue rfl (exits_append fun q hq => List.mem_singleton.mp hq ▸ rfl)

/-- In every run in which each act tells everyone once: whoever is on a leaf has its exit, with
the status on record, once since its attach, in the outbox or queued, and after a flush in the
outbox; and what was put in an outbox is the bytes there and on the socket. -/
theorem exit_told_once {turns : List Turn} {size : Winsize} {isWorker : Bool} {d₀ d : Daemon}
    (hbind : Daemon.bind (.spawn size turns) size isWorker = .ok d₀)
    (hrun : Runs Act.Takes TellsOnce d₀ d) :
    (∀ id c s, On d id c s → c.Written ∧ Told c s) ∧
      ∀ d', TellsOnce d .flush → Act.Takes d .flush d' → ∀ id c s, On d' id c s →
        c.Written ∧ c.since.countP isExit = s.childExit.isSome.toNat ∧
          ∀ q ∈ c.since, isExit q = true → ∃ status, s.childExit = some status ∧
            q = ⟨.exit status, .control⟩ := by
  have h₀ := (bind_ok hbind).1
  refine ⟨fun id c s h => ⟨written_runs h₀ hrun c h.mem, told_runs hbind hrun h⟩, ?_⟩
  intro d' hguard hflush id c s h
  have hrun' := hrun.tail ⟨.flush, hguard, hflush⟩
  have htold := told_runs hbind hrun' h
  have honce := htold.once
  rw [flush_empties hflush.2 h] at honce
  exact ⟨written_runs h₀ hrun' c h.mem, honce, htold.since⟩

/-- A writer and an observer, both there when the exit is seen. -/
theorem exit_told_once_both :
    ∃ d₀ d, Daemon.bind (.spawn ⟨1, 1, 0, 0⟩ [⟨[], some 7, none, none⟩]) ⟨1, 1, 0, 0⟩ false =
        .ok d₀ ∧ Runs Act.Takes TellsOnce d₀ d ∧ d.clients.length = 2 ∧
      (∀ c ∈ d.clients, c.since.countP isExit = 1) ∧ ∃ s, d.session ⟨1⟩ = some s ∧
        s.childExit = some 7 ∧ ∀ id c s, On d id c s → c.Written ∧ Told c s := by
  obtain ⟨d₀, d, hbind, hrun, hfound⟩ := exists_follow (G := TellsOnce)
    [⟨[], some 7, none, none⟩] ⟨1, 1, 0, 0⟩ false
    [.accept (.of [] [] []), .frame ⟨0, 3600⟩ 0 (.attach 1 none protocolVersion false),
      .accept (.of [] [] []), .frame ⟨0, 3600⟩ 1 (.attach 2 none protocolVersion true),
      .reap ⟨0, 3600⟩ ⟨1⟩, .flush]
    (p := fun d => d.clients.length = 2 && d.clients.all (fun c => c.since.countP isExit = 1) &&
      (d.session ⟨1⟩).any fun s => s.childExit = some 7)
    (by decide)
  simp only [Bool.and_eq_true, List.all_eq_true, Option.any_eq_true, decide_eq_true_eq] at hfound
  obtain ⟨⟨hlen, htold⟩, s, hs, hexit⟩ := hfound
  exact ⟨d₀, d, hbind, hrun, hlen, htold, s, hs, hexit, (exit_told_once hbind hrun).1⟩

/-- An observer that attaches after the exit is told nothing of it. -/
theorem exit_untold :
    ∃ d, after [⟨[], some 7, none, none⟩] ⟨1, 1, 0, 0⟩ false
        [{ Poll.quiet with
            accept := .ok (some (.of [.attach 1 none protocolVersion true] [] [])) },
          { Poll.quiet with ready := fun _ => true }, Poll.quiet, Poll.quiet] = .ok d ∧
      ∃ c s, On d ⟨1⟩ c s ∧ s.childExit = some 7 ∧ s.outbound = [] ∧ c.log = [] := by
  refine exists_after (p := fun d => d.clients.any (fun c => c.leaf = some ⟨1⟩ && c.log = []) &&
    (d.session ⟨1⟩).any fun s => s.childExit = some 7 && s.outbound = [])
    (by decide +kernel) fun d hfound => ?_
  simp only [Bool.and_eq_true, List.any_eq_true, Option.any_eq_true, decide_eq_true_eq] at hfound
  obtain ⟨⟨c, hc, hleaf, hlog⟩, s, hs, hexit, hqueue⟩ := hfound
  exact ⟨c, s, ⟨hc, hleaf, hs⟩, hexit, hqueue, hlog⟩

end Rill.Daemon
