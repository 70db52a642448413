import Rill.Daemon.Moved

/-!
# A request for a resync

A protocol-2 client that was skipped can ask for a CHECKPOINT. The request goes
all the way to the session, which does nothing with it.
-/

namespace Rill.Daemon

open Lib Attach Kernel

/-- The CHECKPOINTs at the stream offset `offset` that the client at `idx` was ever sent. -/
def checkpointsAt (d : Daemon) (idx : Nat) (offset : Nat) : Nat :=
  (d.clients[idx]?.map fun c => c.log.countP fun q =>
    match q.frame with
    | .checkpoint endingOffset _ _ => endingOffset = UInt64.ofNat offset
    | _ => false).getD 0

/-- The request of the client at `idx` is answered, at once or in the steps `polls`: it is
sent a CHECKPOINT at the leaf's offset that it is not sent without asking. -/
def Answered (d : Daemon) (m : Moment) (idx : Nat) (id : SessionId) (polls : List Poll) : Prop :=
  ∃ d₁ d₂, (do dispatchFrame m idx .resyncRequest; run polls : DaemonM Unit).exec d = (.ok (), d₁) ∧
    (run polls).exec d = (.ok (), d₂) ∧
    checkpointsAt d₂ idx (bytesDelivered d id) < checkpointsAt d₁ idx (bytesDelivered d id)

theorem dispatch_resyncRequest {d : Daemon} {idx : Nat} {id : SessionId}
    (hleaf : d.leafOf idx = some id) (m : Moment) :
    (dispatchFrame m idx .resyncRequest).exec d = (onFrame m id .resyncRequest).exec d := by
  have hinput : (d.observes idx && isInput .resyncRequest) = false := Bool.and_false _
  have hcredit : creditClient .resyncRequest = fun c => c := rfl
  rw [exec_dispatchFrame rfl, hleaf]
  dsimp only
  rw [hinput, if_neg Bool.false_ne_true, exec_dispatchOwn, hcredit, modifyClient_id]

theorem exec_resyncRequest {d : Daemon} {idx : Nat} {id : SessionId} {s : Session}
    (hleaf : d.leafOf idx = some id) (hs : d.session id = some s) (m : Moment) :
    (dispatchFrame m idx .resyncRequest).exec d = (.ok (), d) := by
  have hkernel : (Kernel.onFrame m id .resyncRequest).exec d.kernel = (.ok (), d.kernel) := by
    rw [Kernel.exec_onFrame hs m rfl]
    exact congrArg (Prod.mk _) (Kernel.setSession_self hs)
  rw [dispatch_resyncRequest hleaf, onFrame, Op.exec_bind, Op.exec_attempt, exec_onKernel, hkernel]
  rfl

/-- A client on a leaf is never answered, whatever steps follow. -/
theorem not_answered {d : Daemon} {idx : Nat} {id : SessionId} {s : Session}
    (hleaf : d.leafOf idx = some id) (hs : d.session id = some s) (m : Moment)
    (polls : List Poll) : ¬ Answered d m idx id polls := by
  rintro ⟨d₁, d₂, hasked, hunasked, hmore⟩
  rw [Op.exec_bind_ok (exec_resyncRequest hleaf hs m), hunasked] at hasked
  obtain rfl : d₂ = d₁ := (Prod.mk.inj hasked).2
  exact absurd hmore (Nat.lt_irrefl _)

/-- In every state the daemon can be in, the request of a client on a leaf, of whatever
protocol, changes nothing at all, and is never answered. -/
theorem resyncRequest_unanswered {d : Daemon} (h : Reachable d) {idx : Nat} {id : SessionId}
    {c : Client} (hc : d.clients[idx]? = some c) (hleaf : c.leaf = some id) (m : Moment) :
    (dispatchFrame m idx .resyncRequest).exec d = (.ok (), d) ∧
      ∀ polls, ¬ Answered d m idx id polls := by
  obtain ⟨hbind, hrun⟩ := h
  obtain ⟨s, hs⟩ := linked_runs (bind_ok hbind).1 hrun c (List.mem_of_getElem? hc) id hleaf
  have hleafOf : d.leafOf idx = some id := leafOf_eq_some.mpr ⟨c, hc, hleaf⟩
  exact ⟨exec_resyncRequest hleafOf hs m, not_answered hleafOf hs m⟩

/-- A client without credit was skipped, and asks in vain. -/
theorem skipped_unanswered :
    ∃ d, after [⟨[97, 98, 99], none, none, none⟩] ⟨1, 1, 0, 0⟩ false
        [{ Poll.quiet with accept := .ok (some (.of [.attach 1 none protocol2 false] [] [])) },
          { Poll.quiet with ready := fun _ => true, readable := fun _ => true }] = .ok d ∧
      (∃ c, d.clients[0]? = some c ∧ c.leaf = some ⟨1⟩ ∧ c.protocol = protocol2 ∧
        c.log.length = 1) ∧
      bytesDelivered d ⟨1⟩ = 3 ∧ ∀ m polls, ¬ Answered d m 0 ⟨1⟩ polls := by
  refine exists_after (p := fun d => d.clients[0]?.any (fun c => c.leaf = some ⟨1⟩ &&
    c.protocol = protocol2 && c.log.length = 1) && (d.session ⟨1⟩).isSome &&
      bytesDelivered d ⟨1⟩ = 3) (by decide +kernel) fun d hfound => ?_
  simp only [Bool.and_eq_true, Option.any_eq_true, decide_eq_true_eq] at hfound
  obtain ⟨⟨⟨c, hc, ⟨hleaf, hprotocol⟩, hlog⟩, hs⟩, hdelivered⟩ := hfound
  obtain ⟨s, hs⟩ := Option.isSome_iff_exists.mp hs
  exact ⟨⟨c, hc, hleaf, hprotocol, hlog⟩, hdelivered,
    not_answered (leafOf_eq_some.mpr ⟨c, hc, hleaf⟩) hs⟩

theorem resyncRequest_unanswered_skipped :
    ∃ d, after [⟨[97, 98, 99], none, none, none⟩] ⟨1, 1, 0, 0⟩ false
        [{ Poll.quiet with accept := .ok (some (.of [.attach 1 none protocol2 false] [] [])) },
          { Poll.quiet with ready := fun _ => true, readable := fun _ => true }] = .ok d ∧
      (dispatchFrame ⟨0, 3600⟩ 0 .resyncRequest).exec d = (.ok (), d) ∧
      ∀ polls, ¬ Answered d ⟨0, 3600⟩ 0 ⟨1⟩ polls := by
  obtain ⟨d, hafter, hfound⟩ := exists_after
    (r := after [⟨[97, 98, 99], none, none, none⟩] ⟨1, 1, 0, 0⟩ false
        [{ Poll.quiet with accept := .ok (some (.of [.attach 1 none protocol2 false] [] [])) },
          { Poll.quiet with ready := fun _ => true, readable := fun _ => true }])
    (p := fun d => d.clients[0]?.any fun c => c.leaf = some ⟨1⟩ && c.protocol = protocol2)
    (by decide +kernel) (fun _ h => h)
  simp only [Bool.and_eq_true, Option.any_eq_true, decide_eq_true_eq] at hfound
  obtain ⟨c, hc, hleaf, -⟩ := hfound
  exact ⟨d, hafter, resyncRequest_unanswered (after_reachable hafter) hc hleaf ⟨0, 3600⟩⟩

end Rill.Daemon
