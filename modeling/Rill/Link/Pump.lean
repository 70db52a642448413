import Mathlib.Logic.Function.Iterate
import Rill.Link.World

/-!
# A pump, step by step

The steps of a line that pumps come to what the client's `pump` does.
-/

namespace Rill.Link

open Lib Attach Kernel Daemon

-- ---------------------------------------------------------------------------
-- What is still to be read
-- ---------------------------------------------------------------------------

/-- What a pump does with what it has read leaves the reads after it. -/
def Unread (reads : List Read) (c : Host.Client) : Prop := c.stream.reads = reads

variable {reads : List Read}

theorem Unread.violate (c : Host.Client) (h : Unread reads c) : Unread reads c.violate := by
  unfold Host.Client.violate
  split
  case isTrue => exact h
  case isFalse => exact h

theorem Unread.send (frame : Frame) : Op.Keeps (Unread reads) (Host.Client.send frame) := by
  refine Op.Keeps.bind (Op.Keeps.modify fun c hc => ?_) fun _ => ?_
  · split
    case isTrue => exact hc
    case isFalse => exact Unread.violate c hc
  · refine Op.Keeps.bind (Op.Keeps.mapError _ (Op.Keeps.lift _)) fun bytes => ?_
    refine Op.Keeps.bind (Op.Keeps.modify fun c hc => hc) fun _ => ?_
    refine Op.Keeps.get_bind fun c hc => ?_
    dsimp only
    rw [Op.exec_modify_bind]
    split
    case isTrue => exact hc
    case isFalse => exact hc

theorem Unread.receive (fed : Nat) (f : Frame) :
    Op.Keeps (Unread reads) (Host.Client.receive fed f) := by
  cases f with
  | data bytes =>
    refine Op.Keeps.bind (Op.Keeps.modify fun c hc => hc) fun _ => ?_
    refine Op.Keeps.bind (Op.Keeps.bind (fun c hc => hc) fun replies => ?_) fun _ => ?_
    · exact Op.Keeps.ite (fun _ => Op.Keeps.pure _) fun _ => Unread.send _
    · exact Op.Keeps.bind (Op.Keeps.modify fun c hc => hc) fun _ => Op.Keeps.pure _
  | refused => exact Op.Keeps.bind (Op.Keeps.modify Unread.violate) fun _ => Op.Keeps.throw _
  | exit => exact Op.Keeps.bind (Op.Keeps.modify fun c hc => Unread.violate _ hc) fun _ => Op.Keeps.pure _
  | attach | credit | resize | checkpoint | delta | resyncRequest =>
    exact Op.Keeps.bind (Op.Keeps.modify Unread.violate) fun _ => Op.Keeps.pure _

theorem Unread.receiveAll (fed : Nat) (frames : List Frame) :
    Op.Keeps (Unread reads) (Host.Client.receiveAll fed frames) := by
  induction frames generalizing fed with
  | nil => exact Op.Keeps.pure _
  | cons f frames ih => exact Op.Keeps.bind (Unread.receive fed f) fun fed => ih fed

/-- What a pump does with the bytes of one read. -/
def digest (fed : Nat) (bytes : List UInt8) : Op Host.Client Host.Error Nat := do
  let frames ← Host.Client.decode bytes
  Host.Client.receiveAll fed frames

theorem Unread.digest (fed : Nat) (bytes : List UInt8) : Op.Keeps (Unread reads) (digest fed bytes) :=
  Op.Keeps.bind (fun _ hc => hc) fun frames => Unread.receiveAll fed frames

-- ---------------------------------------------------------------------------
-- The steps
-- ---------------------------------------------------------------------------

namespace Line

/-- The next step of a pump. -/
def turn (log : List Queued) (l : Line) : Line :=
  match l.fed with
  | none => l
  | some fed => if l.inbox.isEmpty then l.read fed else l.receive log fed

theorem turn_receive (log : List Queued) {l : Line} {fed : Nat} {f : Frame} {inbox : List Frame}
    (hfed : l.fed = some fed) (hinbox : l.inbox = f :: inbox) :
    (l.turn log).host = ((Host.Client.receive fed f).exec l.host).2 ∧
      match ((Host.Client.receive fed f).exec l.host).1 with
      | .ok n => (l.turn log).fed = some n ∧ (l.turn log).inbox = inbox
      | .error _ => (l.turn log).fed = none := by
  unfold turn
  rw [hfed]
  dsimp only
  rw [hinbox, List.isEmpty_cons, if_neg Bool.false_ne_true, receive, hinbox]
  dsimp only
  rcases (Host.Client.receive fed f).exec l.host with ⟨e | n, host⟩
  · exact ⟨rfl, rfl⟩
  · exact ⟨rfl, rfl, rfl⟩

theorem turn_read (log : List Queued) {l : Line} {fed : Nat} (hfed : l.fed = some fed)
    (hinbox : l.inbox = []) : turn log l = l.read fed := by
  unfold turn
  rw [hfed, hinbox]
  rfl

theorem turns_inbox (log : List Queued) {l : Line} {fed : Nat} (hfed : l.fed = some fed) :
    ∃ k, ((turn log)^[k] l).host = ((Host.Client.receiveAll fed l.inbox).exec l.host).2 ∧
      match ((Host.Client.receiveAll fed l.inbox).exec l.host).1 with
      | .ok n => ((turn log)^[k] l).fed = some n ∧ ((turn log)^[k] l).inbox = []
      | .error _ => ((turn log)^[k] l).fed = none := by
  generalize hinbox : l.inbox = inbox
  induction inbox generalizing l fed with
  | nil => exact ⟨0, rfl, hfed, hinbox⟩
  | cons f inbox ih =>
    obtain ⟨hhost, hnext⟩ := turn_receive log hfed hinbox
    rw [Host.Client.receiveAll, Op.exec_bind]
    rcases hrun : (Host.Client.receive fed f).exec l.host with ⟨e | n, host⟩
    · rw [hrun] at hhost hnext
      exact ⟨1, hhost, hnext⟩
    · rw [hrun] at hhost hnext
      obtain ⟨k, hk⟩ := ih hnext.1 hnext.2
      rw [hhost] at hk
      exact ⟨k + 1, hk⟩

/-- What a pump does once it has read. -/
def rest (m : Op Host.Client Host.Error Nat) : Op Host.Client Host.Error Nat := do
  let fed ← m
  Host.Client.replenish fed
  pure fed

theorem rest_pure (fed : Nat) (host : Host.Client) :
    ((rest (pure fed)).exec host).2 = ((Host.Client.replenish fed).exec host).2 := by
  change ((do
    Host.Client.replenish fed
    pure fed : Op Host.Client Host.Error Nat).exec host).2 = _
  rw [Op.exec_bind]
  rcases (Host.Client.replenish fed).exec host with ⟨e | _, host⟩
  · rfl
  · rfl

theorem turns_end {log : List Queued} {l l' : Line} {host : Host.Client} (hturn : turn log l = l')
    (hfed : l'.fed = none) (hhost : host = l'.host) :
    ∃ k, ((turn log)^[k] l).fed = none ∧ ((turn log)^[k] l).host = host := by
  subst hturn
  exact ⟨1, hfed, hhost.symm⟩

/-- The steps that take a read of some bytes, and the frames they decode to. -/
theorem turns_digest (log : List Queued) {l : Line} {fed : Nat} {bytes : List UInt8} {reads : List Read}
    (hfed : l.fed = some fed) (hinbox : l.inbox = []) (hreads : l.host.stream.reads = .data bytes :: reads)
    (hsome : ¬ (bytes.take Host.bufLen).isEmpty = true) :
    let r := (digest fed (bytes.take Host.bufLen)).exec
      { l.host with stream := { l.host.stream with reads } }
    ∃ k, ((turn log)^[k] l).host = r.2 ∧
      match r.1 with
      | .ok n => ((turn log)^[k] l).fed = some n ∧ ((turn log)^[k] l).inbox = []
      | .error _ => ((turn log)^[k] l).fed = none := by
  have hturn := turn_read log hfed hinbox
  dsimp only
  rw [digest, Op.exec_bind]
  generalize hhost : ({ l.host with stream := { l.host.stream with reads } } : Host.Client) = host
  rcases hdecode : (Host.Client.decode (bytes.take Host.bufLen)).exec host with ⟨e | inbox, host₁⟩
  · have hread : l.read fed = ({ l with host := host₁ } : Line).fail := by
      unfold Line.read
      rw [hreads]
      dsimp only
      rw [if_neg hsome, hhost, hdecode]
    exact ⟨1, congrArg Line.host (hturn.trans hread), congrArg Line.fed (hturn.trans hread)⟩
  · have hread : l.read fed = { l with
        host := host₁
        inbox
        heard := l.heard + (bytes.take Host.bufLen).length } := by
      unfold Line.read
      rw [hreads]
      dsimp only
      rw [if_neg hsome, hhost, hdecode]
    obtain ⟨k, hall⟩ := turns_inbox log (l := l.turn log) (by rw [hturn, hread]; exact hfed)
    refine ⟨k + 1, ?_⟩
    rw [hturn, hread] at hall
    rw [Function.iterate_succ_apply, hturn, hread]
    exact hall

theorem exec_readLoop_data {bytes : List UInt8} (hsome : ¬ (bytes.take Host.bufLen).isEmpty = true)
    (fed : Nat) (reads : List Read) (c : Host.Client) :
    (Host.Client.readLoop fed (.data bytes :: reads)).exec c =
      (digest fed (bytes.take Host.bufLen) >>= fun fed => Host.Client.readLoop fed reads).exec
        { c with stream := { c.stream with reads } } := by
  change (if _ then _ else _ : Op Host.Client Host.Error Nat).exec _ = _
  rw [if_neg hsome, digest, Op.exec_bind, Op.exec_bind, Op.exec_bind]
  rcases (Host.Client.decode (bytes.take Host.bufLen)).exec
    { c with stream := { c.stream with reads } } with ⟨e | inbox, c₁⟩
  · rfl
  · exact Op.exec_bind _ _ _

theorem turns_reads (log : List Queued) (reads : List Read) {l : Line} {fed : Nat}
    (hfed : l.fed = some fed) (hinbox : l.inbox = []) (hreads : l.host.stream.reads = reads) :
    ∃ k, ((turn log)^[k] l).fed = none ∧
      ((turn log)^[k] l).host = ((rest (Host.Client.readLoop fed reads)).exec l.host).2 := by
  induction reads generalizing l fed with
  | nil =>
    have hread : l.read fed = l.finish fed := by
      unfold Line.read
      rw [hreads]
    exact turns_end ((turn_read log hfed hinbox).trans hread) rfl (rest_pure fed l.host)
  | cons read reads ih =>
    have hturn := turn_read log hfed hinbox
    let host := { l.host with stream := { l.host.stream with reads } }
    cases read with
    | eof | wouldBlock =>
      have hread : l.read fed = ({ l with host } : Line).finish fed := by
        unfold Line.read
        rw [hreads]
      exact turns_end (hturn.trans hread) rfl (rest_pure fed host)
    | failed =>
      have hread : l.read fed = ({ l with host } : Line).fail := by
        unfold Line.read
        rw [hreads]
      exact turns_end (hturn.trans hread) rfl rfl
    | data bytes =>
      by_cases hempty : (bytes.take Host.bufLen).isEmpty = true
      · have hread : l.read fed = ({ l with host } : Line).finish fed := by
          unfold Line.read
          rw [hreads]
          exact if_pos hempty
        have hrest : (rest (Host.Client.readLoop fed (.data bytes :: reads))).exec l.host =
            (rest (pure fed)).exec host := by
          change (rest (if _ then _ else _)).exec host = _
          rw [if_pos hempty]
        rw [hrest]
        exact turns_end (hturn.trans hread) rfl (rest_pure fed host)
      · obtain ⟨k, hhost, hends⟩ := turns_digest log hfed hinbox hreads hempty
        have hkept := Unread.digest fed (bytes.take Host.bufLen) host rfl
        rw [rest, Op.exec_bind, exec_readLoop_data hempty, Op.exec_bind]
        rcases hdigest : (digest fed (bytes.take Host.bufLen)).exec host with ⟨e | n, host₁⟩
        · rw [hdigest] at hhost hends
          exact ⟨k, hends, hhost⟩
        · rw [hdigest] at hhost hends hkept
          obtain ⟨k', hfed', hhost'⟩ := ih hends.1 hends.2 (hhost ▸ hkept)
          refine ⟨k' + k, ?_, ?_⟩
          · rw [Function.iterate_add_apply]
            exact hfed'
          · rw [Function.iterate_add_apply, hhost', hhost, rest, Op.exec_bind]

/-- A pump and the steps of one come to the same host. -/
theorem start_turns (log : List Queued) {l : Line} (hfed : l.fed = none) (hinbox : l.inbox = []) :
    ∃ k, ((turn log)^[k] l.start).fed = none ∧
      ((turn log)^[k] l.start).host = (Host.Client.pump.exec l.host).2 := by
  unfold start
  rw [Host.Client.pump, Op.exec_bind]
  rcases Host.Client.flushOutbox.exec l.host with ⟨e | _, host⟩
  · exact ⟨0, hfed, rfl⟩
  · exact turns_reads log host.stream.reads rfl hinbox rfl

end Line

end Rill.Link
