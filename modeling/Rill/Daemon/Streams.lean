import Rill.Daemon.Moved
import Rill.Kernel.History

/-!
# The output of a leaf

Every leaf's counters and ring against all that was read from it, and what can
be in its queue. Both hold in every state the daemon can be in.
-/

namespace Rill.Daemon

open Lib Attach Kernel

-- ---------------------------------------------------------------------------
-- What was read
-- ---------------------------------------------------------------------------

/-- `t` has read `got` since `s`, and has put it on record. -/
structure Reads (s t : Session) (got : List UInt8) : Prop where
  taken : t.pty.taken = s.pty.taken ++ got
  ring : t.ring = s.ring.append got
  delivered : t.bytesDelivered = min (s.bytesDelivered + got.length) u64Max

/-- The counters and the ring are those of all that was read. -/
structure Counted (s : Session) : Prop where
  cap : s.ring.cap = ringCap
  data : s.ring.data = s.pty.taken.drop (s.pty.taken.length - s.ring.cap)
  stop : s.ring.stop = min s.pty.taken.length u64Max
  delivered : s.bytesDelivered = s.ring.stop

theorem Reads.refl {s t : Session} (hle : s.bytesDelivered ≤ u64Max) (htaken : t.pty.taken = s.pty.taken)
    (hring : t.ring = s.ring) (hdelivered : t.bytesDelivered = s.bytesDelivered) : Reads s t [] := by
  refine ⟨by rw [htaken, List.append_nil], by rw [hring, ByteRing.append_nil], ?_⟩
  rw [hdelivered, List.length_nil, Nat.add_zero, Nat.min_eq_left hle]

theorem Counted.le {s : Session} (h : Counted s) : s.bytesDelivered ≤ u64Max := by
  rw [h.delivered, h.stop]
  exact Nat.min_le_right _ _

theorem Counted.reads {s t : Session} {got : List UInt8} (h : Counted s) (hreads : Reads s t got) :
    Counted t := by
  obtain ⟨htaken, hring, hdelivered⟩ := hreads
  have hstop : (s.ring.append got).stop = min (s.pty.taken.length + got.length) u64Max := by
    by_cases hgot : got = []
    · rw [hgot, ByteRing.append_nil, h.stop]
      rfl
    · rw [ByteRing.append_of_ne_nil s.ring hgot]
      dsimp only
      rw [h.stop]
      omega
  refine ⟨?_, ?_, ?_, ?_⟩
  · rw [hring, ByteRing.cap_append, h.cap]
  · rw [hring, htaken, ByteRing.cap_append, ByteRing.data_append h.data]
  · rw [hring, hstop, htaken, List.length_append]
  · rw [hdelivered, hring, hstop, h.delivered, h.stop]
    omega

theorem Counted.history {s : Session} (h : Counted s) :
    s.history = (s.pty.taken.take s.pty.taken.length).drop (s.pty.taken.length - ringCap) := by
  rw [List.take_length, ← h.cap]
  exact h.data

theorem releaseRole_stream (observe : Bool) (s : Session) :
    (releaseRole observe s).pty.taken = s.pty.taken ∧ (releaseRole observe s).ring = s.ring ∧
      (releaseRole observe s).bytesDelivered = s.bytesDelivered := by
  cases observe with
  | true => exact ⟨rfl, rfl, rfl⟩
  | false => exact ⟨s.detach_taken, rfl, rfl⟩

theorem leave_stream (x : Client) (id : SessionId) (s : Session) :
    (x.leave id s).pty.taken = s.pty.taken ∧ (x.leave id s).ring = s.ring ∧
      (x.leave id s).bytesDelivered = s.bytesDelivered := by
  unfold Client.leave
  split
  case isTrue => exact releaseRole_stream x.observe s
  case isFalse => exact ⟨rfl, rfl, rfl⟩

theorem Left.taken {d : Daemon} {id : SessionId} {c : Client} {s t : Session}
    (h : Left d id c s t) : t.pty.taken = s.pty.taken := by
  rcases h with rfl | ⟨x, -, -, rfl⟩
  · rfl
  · exact (releaseRole_stream x.observe s).1

theorem Evolves.reads {d : Daemon} {id : SessionId} {a : Act} {s t : Session} (h : Evolves d id a s t)
    (hcounted : Counted s) : ∃ got, Reads s t got := by
  have hle := hcounted.le
  cases h with
  | steady hsteady => exact ⟨[], .refl hle hsteady.pty.taken hsteady.ring hsteady.bytesDelivered⟩
  | attach =>
    obtain ⟨hpty, hring, hdelivered⟩ := attach_stream s _ _ _
    exact ⟨[], .refl hle (congrArg Pty.taken hpty) hring hdelivered⟩
  | release observe =>
    obtain ⟨htaken, hring, hdelivered⟩ := releaseRole_stream observe s
    exact ⟨[], .refl hle htaken hring hdelivered⟩
  | exit hsteady => exact ⟨[], .refl hle hsteady.pty.taken hsteady.ring hsteady.bytesDelivered⟩
  | fanout _ _ hgives => exact ⟨_, hgives.taken, rfl, rfl⟩
  | queue _ _ _ hgives => exact ⟨_, hgives.taken, rfl, rfl⟩
  | @flush _ qs _ x =>
    cases x with
    | none => exact ⟨[], .refl hle rfl rfl rfl⟩
    | some x =>
      obtain ⟨htaken, hring, hdelivered⟩ := leave_stream x id { s with outbound := qs }
      exact ⟨[], .refl hle htaken hring hdelivered⟩
  | skipResync => exact ⟨[], .refl hle rfl rfl rfl⟩
  | repaint => exact ⟨[], .refl hle rfl rfl rfl⟩

theorem counted_spawn (size : Winsize) (turns : List Turn) :
    Counted (.spawn (.spawn size turns) false size) := ⟨rfl, List.drop_nil.symm, rfl, rfl⟩

theorem counted_runs {G : Daemon → Act → Prop} {turns : List Turn} {size : Winsize}
    {isWorker : Bool} {d₀ d : Daemon} (hbind : Daemon.bind (.spawn size turns) size isWorker = .ok d₀)
    (hrun : Runs Act.Takes G d₀ d) {id : SessionId} {s : Session} (hs : d.session id = some s) :
    Counted s := by
  refine sessions_runs (K := fun _ s => Counted s)
    (bind_sessions hbind fun _ size turns => counted_spawn size turns)
    (fun _ size turns => counted_spawn size turns) ?_ hrun id s hs
  intro d a id s s' _ _ hcounted hevolves
  obtain ⟨got, hreads⟩ := hevolves.reads hcounted
  exact hcounted.reads hreads

-- ---------------------------------------------------------------------------
-- What is queued
-- ---------------------------------------------------------------------------

/-- What the session queues itself, or the daemon for it: an exit that was seen,
a refusal, output that was read, or the repaint of a history there was. -/
inductive Queueable (s : Session) : Queued → Prop
  | exit {status : Int32} (h : s.childExit = some status) : Queueable s ⟨.exit status, .control⟩
  | refused (reason : RefuseReason) : Queueable s ⟨.refused reason, .control⟩
  | live {start : Nat} {bytes : List UInt8} (h : start + bytes.length ≤ s.pty.taken.length)
    (hbytes : (s.pty.taken.drop start).take bytes.length = bytes) :
    Queueable s ⟨.data bytes, .live start⟩
  | repaint {upTo : Nat} {bytes : List UInt8} (h : upTo ≤ s.pty.taken.length)
    (hbytes : ∃ chip chip' : Vt.VtEngine, chip.resyncFromHistory
      ((s.pty.taken.take upTo).drop (upTo - ringCap)) = .ok (bytes, chip')) :
    Queueable s ⟨.data bytes, .repaint upTo⟩

theorem Queueable.mono {s t : Session} {q : Queued} (h : Queueable s q)
    (htaken : s.pty.taken <+: t.pty.taken)
    (hexit : ∀ status, s.childExit = some status → t.childExit = some status) : Queueable t q := by
  obtain ⟨more, hmore⟩ := htaken
  cases h with
  | exit h => exact .exit (hexit _ h)
  | refused reason => exact .refused reason
  | @live start bytes h hbytes =>
    have hstart : start ≤ s.pty.taken.length := by omega
    refine .live ?_ ?_
    · rw [← hmore, List.length_append]
      omega
    · rw [← hmore, List.drop_append_of_le_length hstart, List.take_append_of_le_length, hbytes]
      rw [List.length_drop]
      omega
  | repaint h hbytes =>
    refine .repaint ?_ ?_
    · rw [← hmore, List.length_append]
      omega
    · rwa [← hmore, List.take_append_of_le_length h]

theorem releaseRole_outbound (observe : Bool) (s : Session) :
    (releaseRole observe s).outbound.Sublist s.outbound := by
  cases observe with
  | true => exact List.Sublist.refl _
  | false => exact List.filter_sublist

theorem leave_outbound (x : Client) (id : SessionId) (s : Session) :
    (x.leave id s).outbound.Sublist s.outbound := by
  unfold Client.leave
  split
  case isTrue => exact releaseRole_outbound x.observe s
  case isFalse => exact List.Sublist.refl _

theorem Left.outbound {d : Daemon} {id : SessionId} {c : Client} {s t : Session}
    (h : Left d id c s t) : t.outbound.Sublist s.outbound := by
  rcases h with rfl | ⟨x, -, -, rfl⟩
  · exact List.Sublist.refl _
  · exact releaseRole_outbound x.observe s

theorem releaseRole_resyncPending (observe : Bool) (s : Session) :
    (releaseRole observe s).resyncPending = s.resyncPending := by
  cases observe with
  | true => rfl
  | false => rfl

theorem Left.resyncPending {d : Daemon} {id : SessionId} {c : Client} {s t : Session}
    (h : Left d id c s t) : t.resyncPending = s.resyncPending := by
  rcases h with rfl | ⟨x, -, -, rfl⟩
  · rfl
  · exact releaseRole_resyncPending x.observe s

/-- What is queued by an ATTACH: a refusal, or the exit of a child that is dead. -/
theorem attach_outbound (s : Session) (m : Moment) (generation : UInt64) (observe : Bool) :
    (s.attach m generation observe).outbound =
      s.outbound ++ if observe then [] else if s.attached then [⟨.refused .alreadyAttached, .control⟩]
        else s.replay := by
  unfold Session.attach
  split
  case isTrue => exact (List.append_nil _).symm
  case isFalse =>
    split
    case isTrue => rfl
    case isFalse => rfl

theorem attach_queue (s : Session) (m : Moment) (generation : UInt64) (observe : Bool) :
    ∃ qs, (s.attach m generation observe).outbound = s.outbound ++ qs ∧
      ∀ q ∈ qs, q.origin = .control := by
  refine ⟨_, attach_outbound s m generation observe, fun q hq => ?_⟩
  split at hq
  case isTrue => cases hq
  case isFalse =>
    split at hq
    case isTrue =>
      obtain rfl := List.mem_singleton.mp hq
      rfl
    case isFalse =>
      obtain ⟨status, -, rfl⟩ := List.mem_map.mp hq
      rfl

theorem observeExit_queue (s : Session) (status : Int32) :
    ∃ qs, (s.observeExit status).outbound = s.outbound ++ qs ∧ ∀ q ∈ qs, q.origin = .control := by
  change ∃ qs, (if s.hasListeners then _ else _) = _ ∧ _
  split
  case isTrue =>
    refine ⟨[⟨.exit status, .control⟩], rfl, fun q hq => ?_⟩
    obtain rfl := List.mem_singleton.mp hq
    rfl
  case isFalse => exact ⟨[], (List.append_nil _).symm, nofun⟩

theorem deliverQueued_queue (s : Session) (start : Nat) (got : List UInt8) :
    ∃ qs, (s.deliverQueued start got).outbound = s.outbound ++ qs ∧ ∀ q ∈ qs, q.origin = .live start := by
  change ∃ qs, (if s.hasListeners then _ else _) = _ ∧ _
  split
  case isTrue =>
    refine ⟨[⟨.data got, .live start⟩], rfl, fun q hq => ?_⟩
    obtain rfl := List.mem_singleton.mp hq
    rfl
  case isFalse => exact ⟨[], (List.append_nil _).symm, nofun⟩

/-- An exit that was seen stays on record. -/
theorem Evolves.childExit {d : Daemon} {id : SessionId} {a : Act} {s t : Session}
    (h : Evolves d id a s t) {status : Int32} (hexit : s.childExit = some status) :
    t.childExit = some status := by
  cases h with
  | steady hsteady => exact hsteady.childExit.trans hexit
  | attach => exact (attach_childExit s _ _ _).trans hexit
  | release observe => exact (releaseRole_childExit observe s).trans hexit
  | exit _ halive =>
    rw [halive] at hexit
    cases hexit
  | fanout | queue | skipResync | repaint => exact hexit
  | @flush _ qs _ x =>
    cases x with
    | none => exact hexit
    | some x => exact (leave_childExit x id _).trans hexit

/-- What is queued after an act was queued before, or is new and may be; output is
queued only where there is no other way for it. -/
theorem Evolves.outbound {d : Daemon} {id : SessionId} {a : Act} {s t : Session}
    (h : Evolves d id a s t) (hcounted : Counted s) :
    ∀ q ∈ t.outbound, q ∈ s.outbound ∨ (Queueable t q ∧
      ∀ start, q.origin = .live start → (hasProtocol2 d id || d.isWorker) = false) := by
  intro q hq
  cases h with
  | steady hsteady => exact .inl (hsteady.outbound ▸ hq)
  | @attach m idx generation sessionId protocol observe =>
    rw [attach_outbound] at hq
    rcases List.mem_append.mp hq with hold | hnew
    · exact .inl hold
    · right
      split at hnew
      case isTrue => cases hnew
      case isFalse =>
        split at hnew
        case isTrue =>
          obtain rfl := List.mem_singleton.mp hnew
          exact ⟨.refused _, nofun⟩
        case isFalse =>
          obtain ⟨status, hstatus, rfl⟩ := List.mem_map.mp hnew
          exact ⟨.exit ((attach_childExit s _ _ _).trans (Option.mem_toList.mp hstatus)), nofun⟩
  | release observe => exact .inl ((releaseRole_outbound observe s).subset hq)
  | @exit m _ u status hsteady =>
    change q ∈ (if u.hasListeners then _ else _) at hq
    split at hq
    case isTrue =>
      rcases List.mem_append.mp hq with hold | hnew
      · exact .inl (hsteady.outbound ▸ hold)
      · obtain rfl := List.mem_singleton.mp hnew
        exact .inr ⟨.exit rfl, nofun⟩
    case isFalse => exact .inl (hsteady.outbound ▸ hq)
  | fanout => exact .inl hq
  | @queue _ p got hpath _ _ hgives =>
    change q ∈ (if ({ s with pty := p } : Session).hasListeners then _ else _) at hq
    split at hq
    case isTrue =>
      rcases List.mem_append.mp hq with hold | hnew
      · exact .inl hold
      · obtain rfl := List.mem_singleton.mp hnew
        have htaken : p.taken = s.pty.taken ++ got := hgives.taken
        refine .inr ⟨.live ?_ ?_, fun _ _ => hpath⟩
        · exact Nat.le_of_eq (htaken ▸ List.length_append).symm
        · change (p.taken.drop _).take _ = _
          rw [htaken, List.drop_left, List.take_length]
    case isFalse => exact .inl hq
  | @flush _ qs hqs x =>
    left
    cases x with
    | none => exact hqs.subset hq
    | some x => exact hqs.subset ((leave_outbound x id _).subset hq)
  | skipResync => exact .inl hq
  | @repaint _ bytes _ _ hbytes =>
    rcases List.mem_append.mp hq with hold | hnew
    · exact .inl hold
    · obtain rfl := List.mem_singleton.mp hnew
      obtain ⟨chip, hchip⟩ := hbytes
      rw [hcounted.history] at hchip
      exact .inr ⟨.repaint (Nat.le_refl _) ⟨d.chip, chip, hchip⟩, nofun⟩

/-- In every state, all that is queued may be. -/
theorem queueable_runs {G : Daemon → Act → Prop} {turns : List Turn} {size : Winsize}
    {isWorker : Bool} {d₀ d : Daemon} (hbind : Daemon.bind (.spawn size turns) size isWorker = .ok d₀)
    (hrun : Runs Act.Takes G d₀ d) {id : SessionId} {s : Session} (hs : d.session id = some s) :
    ∀ q ∈ s.outbound, Queueable s q := by
  have hspawn : ∀ (_ : SessionId) (size : Winsize) (turns : List Turn),
      Counted (.spawn (.spawn size turns) false size) ∧
        ∀ q ∈ (Session.spawn (.spawn size turns) false size).outbound,
          Queueable (.spawn (.spawn size turns) false size) q :=
    fun _ size turns => ⟨counted_spawn size turns, fun _ hq => absurd hq List.not_mem_nil⟩
  refine (sessions_runs (K := fun _ s => Counted s ∧ ∀ q ∈ s.outbound, Queueable s q)
    (bind_sessions hbind hspawn) hspawn ?_ hrun id s hs).2
  rintro d a id s t _ _ ⟨hcounted, hqueue⟩ hevolves
  obtain ⟨got, hreads⟩ := hevolves.reads hcounted
  refine ⟨hcounted.reads hreads, fun q hq => ?_⟩
  rcases hevolves.outbound hcounted q hq with hold | hnew
  · exact (hqueue q hold).mono ⟨got, hreads.taken.symm⟩ fun _ => hevolves.childExit
  · exact hnew.1

/-- In worker mode no output is queued. -/
theorem live_not_queued {G : Daemon → Act → Prop} {turns : List Turn} {size : Winsize}
    {d₀ d : Daemon} (hbind : Daemon.bind (.spawn size turns) size true = .ok d₀)
    (hrun : Runs Act.Takes G d₀ d) {id : SessionId} {s : Session} (hs : d.session id = some s) :
    ∀ q ∈ s.outbound, ∀ start, q.origin ≠ .live start := by
  have hspawn : ∀ (_ : SessionId) (size : Winsize) (turns : List Turn),
      Counted (.spawn (.spawn size turns) false size) ∧
        ∀ q ∈ (Session.spawn (.spawn size turns) false size).outbound, ∀ start,
          q.origin ≠ .live start :=
    fun _ size turns => ⟨counted_spawn size turns, fun _ hq => absurd hq List.not_mem_nil⟩
  refine (sessions_runs (K := fun _ s => Counted s ∧ ∀ q ∈ s.outbound, ∀ start, q.origin ≠ .live start)
    (bind_sessions hbind hspawn) hspawn ?_ hrun id s hs).2
  rintro d a id s t hrun _ ⟨hcounted, hqueue⟩ hevolves
  obtain ⟨got, hreads⟩ := hevolves.reads hcounted
  refine ⟨hcounted.reads hreads, fun q hq start hlive => ?_⟩
  rcases hevolves.outbound hcounted q hq with hold | ⟨-, hpath⟩
  · exact hqueue q hold start hlive
  · have hworker : d.isWorker = true := (isWorker_runs hrun).trans (bind_ok hbind).2.1
    have hnone := hpath start hlive
    rw [hworker, Bool.or_true] at hnone
    cases hnone

end Rill.Daemon
