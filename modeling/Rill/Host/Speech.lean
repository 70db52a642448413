import Rill.Daemon.Flush
import Rill.Host.Presenter

/-!
# What a host sends

The frames that each of a client's calls puts on its socket.
-/

namespace Rill.Host

open Lib Attach

/-- What a frame brings to be fed. -/
def dataIn : Frame → List UInt8
  | .data bytes => bytes
  | _ => []

/-- Neither a claim nor credit. -/
def inert : Frame → Bool
  | .attach .. | .credit _ => false
  | _ => true

namespace Client

/-- `c'` has sent `fs` since it was `c`: they are on the socket, or behind what was in the
outbox. What it has read is untouched. -/
structure Sends (c c' : Client) (fs : List Frame) : Prop where
  decoder : c'.decoder = c.decoder
  grows : c.stream.sent <+: c'.stream.sent
  bytes : c'.stream.sent ++ c'.outbox = c.stream.sent ++ c.outbox ++ fs.flatMap Frame.wire
  fits : ∀ f ∈ fs, f.Fits

/-- Nothing was sent but input, resizes and replies. -/
def Mutters (c c' : Client) : Prop := ∃ fs, Sends c c' fs ∧ ∀ f ∈ fs, inert f = true

namespace Sends

variable {c c' c'' : Client} {fs gs : List Frame}

theorem of_eq (hdecoder : c'.decoder = c.decoder) (hsent : c'.stream.sent = c.stream.sent)
    (houtbox : c'.outbox = c.outbox) : Sends c c' [] where
  decoder := hdecoder
  grows := hsent ▸ List.prefix_refl _
  bytes := by rw [hsent, houtbox, List.flatMap_nil, List.append_nil]
  fits _ hf := absurd hf List.not_mem_nil

theorem refl (c : Client) : Sends c c [] := of_eq rfl rfl rfl

theorem trans (h : Sends c c' fs) (k : Sends c' c'' gs) : Sends c c'' (fs ++ gs) where
  decoder := k.decoder.trans h.decoder
  grows := h.grows.trans k.grows
  bytes := by rw [k.bytes, h.bytes, List.flatMap_append, List.append_assoc]
  fits f hf := (List.mem_append.mp hf).elim (h.fits f) (k.fits f)

theorem flushOutbox (c : Client) : Sends c (Client.flushOutbox.exec c).2 [] := by
  have hbytes := Daemon.Client.writeLoop_bytes c.stream.writes c.outbox c.stream.sent
  have hgrows := Daemon.Client.writeLoop_grows c.stream.writes c.outbox c.stream.sent
  rw [Client.flushOutbox, Op.exec_get_bind]
  generalize Daemon.Client.writeLoop c.stream.writes c.outbox c.stream.sent = run at hbytes hgrows
  obtain ⟨ok, writes, outbox, sent⟩ := run
  have hflushed : Sends c { c with stream := { c.stream with writes, sent }, outbox } [] :=
    ⟨rfl, hgrows, hbytes.trans (List.append_nil _).symm, fun _ hf => absurd hf List.not_mem_nil⟩
  dsimp only
  rw [Op.exec_modify_bind]
  cases ok with
  | true => exact hflushed
  | false => exact hflushed

theorem violate (c : Client) : Sends c c.violate [] := by
  unfold Client.violate
  split
  case isTrue => exact of_eq rfl rfl rfl
  case isFalse => exact refl c

theorem send_unfit (c : Client) {frame : Frame} (h : ¬ frame.Fits) :
    Sends c ((Client.send frame).exec c).2 [] := by
  rw [Client.send, Op.exec_modify_bind, Op.exec_bind, Op.exec_mapError, Op.exec_lift,
    Frame.encode_of_not_fits h]
  dsimp only [Except.mapError]
  split
  case isTrue => exact refl c
  case isFalse => exact violate c

theorem send (c : Client) {frame : Frame} (h : frame.Fits) :
    Sends c ((Client.send frame).exec c).2 [frame] := by
  rw [Client.send, Op.exec_modify_bind, Op.exec_bind, Op.exec_mapError, Op.exec_lift,
    Frame.encode_of_fits h]
  dsimp only [Except.mapError]
  rw [Op.exec_modify_bind]
  have hviolate : Sends c (if frame.isWarmPath then c else c.violate) [] := by
    split
    case isTrue => exact refl c
    case isFalse => exact violate c
  generalize (if frame.isWarmPath then c else c.violate) = u at hviolate
  have hqueue : Sends u { u with outbox := u.outbox ++ frame.wire } [frame] := by
    refine ⟨rfl, List.prefix_refl _, ?_, fun f hf => ?_⟩
    · rw [List.flatMap_singleton]
      exact (List.append_assoc _ _ _).symm
    · obtain rfl := List.mem_singleton.mp hf
      exact h
  exact (hviolate.trans hqueue).trans (flushOutbox _)

theorem grantCredit (c : Client) (n : UInt32) :
    Sends c ((Client.grantCredit n).exec c).2 [.credit n] := by
  have hcredit : Sends c
      { c with outstandingCredit := min (c.outstandingCredit + n.toNat) Kernel.u64Max } [] :=
    of_eq rfl rfl rfl
  have hfits : (Frame.credit n).Fits := by
    have hlen : (Frame.credit n).payload.length = 4 := rfl
    rw [Frame.Fits, hlen]
    decide
  rw [Client.grantCredit, Op.exec_modify_bind]
  exact hcredit.trans (send _ hfits)

theorem replenish (c : Client) (fed : Nat) :
    Sends c ((Client.replenish fed).exec c).2
      (if fed > 0 then [.credit (UInt32.ofNat (min fed 4294967295))] else []) := by
  unfold Client.replenish
  split
  case isTrue => exact grantCredit c _
  case isFalse => exact refl c

end Sends

namespace Mutters

variable {c c' c'' : Client}

theorem of_sends (h : Sends c c' []) : Mutters c c' := ⟨[], h, fun _ hf => absurd hf List.not_mem_nil⟩

theorem trans (h : Mutters c c') (k : Mutters c' c'') : Mutters c c'' := by
  obtain ⟨fs, hfs, hinert⟩ := h
  obtain ⟨gs, hgs, hinert'⟩ := k
  exact ⟨fs ++ gs, hfs.trans hgs, fun f hf => (List.mem_append.mp hf).elim (hinert f) (hinert' f)⟩

theorem send (c : Client) {frame : Frame} (h : inert frame = true) :
    Mutters c ((Client.send frame).exec c).2 := by
  by_cases hfits : frame.Fits
  · refine ⟨_, .send c hfits, fun f hf => ?_⟩
    obtain rfl := List.mem_singleton.mp hf
    exact h
  · exact of_sends (.send_unfit c hfits)

theorem sendInput (c : Client) (bytes : List UInt8) :
    Mutters c ((Client.sendInput bytes).exec c).2 := by
  rw [Client.sendInput, Op.exec_get_bind]
  by_cases hdead : (!c.alive) = true
  · rw [Op.exec_guard_pos hdead]
    exact of_sends (.refl c)
  · rw [Op.exec_guard_neg hdead, Op.exec_modify_bind, Op.exec_modify_bind]
    refine Mutters.trans (of_sends ?_) (send _ ?_)
    · exact .of_eq rfl rfl rfl
    · rfl

theorem resize (c : Client) (cols rows pxW pxH : UInt16) :
    Mutters c ((Client.resize cols rows pxW pxH).exec c).2 := by
  rw [Client.resize, Op.exec_modify_bind, Op.exec_get_bind, Op.exec_bind, Op.exec_mapError,
    Op.exec_lift]
  cases (c.jump c.scrollOffset).chip.resize cols rows with
  | error e => exact of_sends (.of_eq rfl rfl rfl)
  | ok chip =>
    dsimp only [Except.mapError]
    rw [Op.exec_modify_bind]
    refine Mutters.trans (of_sends ?_) (send _ ?_)
    · exact .of_eq rfl rfl rfl
    · rfl

theorem ensureSnapshots (c : Client) : Mutters c c.ensureSnapshots := by
  unfold Client.ensureSnapshots
  split
  case isTrue => exact of_sends (.refl c)
  case isFalse => exact of_sends (.of_eq rfl rfl rfl)

/-- No call but a pump sends anything but input and resizes. -/
theorem call (c : Client) {call : Call} (h : call ≠ .pump) :
    Mutters c ((Presenter.new c).after call).client := by
  cases call with
  | pump => exact absurd rfl h
  | scrollLines delta => exact of_sends (.of_eq rfl rfl rfl)
  | sendInput bytes => exact sendInput c bytes
  | followLive => exact of_sends (.of_eq rfl rfl rfl)
  | resize cols rows pxW pxH => exact resize c cols rows pxW pxH
  | cellCodepoint | cursorCell | liveCodepoint | snapshot => exact ensureSnapshots c

/-- What is received is answered with replies, and counted if it is fed. -/
theorem receive (c : Client) (fed : Nat) (frame : Frame) :
    Mutters c ((Client.receive fed frame).exec c).2 ∧
      ∀ n c', (Client.receive fed frame).exec c = (.ok n, c') → n = fed + (dataIn frame).length := by
  have hviolate : ∀ c : Client, Mutters c c.violate := fun c => of_sends (.violate c)
  cases frame with
  | data bytes =>
    have hreply : ∀ c : Client, Mutters c (Client.reply.exec c).2 := by
      intro c
      rw [Client.reply, Op.exec_bind, Op.exec_of]
      dsimp only
      split
      case isTrue => exact of_sends (.of_eq rfl rfl rfl)
      case isFalse =>
        refine Mutters.trans (of_sends ?_) (send _ ?_)
        · exact .of_eq rfl rfl rfl
        · rfl
    have hfeed : Mutters c (c.feed bytes) := of_sends (.of_eq rfl rfl rfl)
    have hboth := hfeed.trans (hreply (c.feed bytes))
    rw [Client.receive, Op.exec_modify_bind, Op.exec_bind]
    rcases hrun : Client.reply.exec (c.feed bytes) with ⟨e | _, c₁⟩
    · rw [hrun] at hboth
      exact ⟨hboth, fun _ _ hok => by cases hok⟩
    · rw [hrun] at hboth
      dsimp only
      rw [Op.exec_modify_bind]
      refine ⟨hboth.trans (of_sends (.of_eq rfl rfl rfl)), fun n c' hok => ?_⟩
      exact (Except.ok.inj (Prod.mk.inj hok).1).symm
  | exit status =>
    have hdead : Mutters c { c with alive := false, exitStatus := some status } :=
      of_sends (.of_eq rfl rfl rfl)
    exact ⟨hdead.trans (hviolate _), fun n c' hok => (Except.ok.inj (Prod.mk.inj hok).1).symm⟩
  | refused reason => exact ⟨hviolate c, fun _ _ hok => by cases hok⟩
  | attach | credit | resize | checkpoint | delta | resyncRequest =>
    exact ⟨hviolate c, fun n c' hok => (Except.ok.inj (Prod.mk.inj hok).1).symm⟩

end Mutters

/-- A client that has connected has sent its claim and the window. -/
theorem connect_sends {stream : Daemon.Stream} {surface : HostSurface} {sessionId : Option UInt64}
    {c : Client} (h : connectSession stream surface sessionId = .ok c) :
    ∃ chip, Sends (new stream surface chip) c
      [Frame.attachWriter 1 sessionId, .credit creditWindow] := by
  unfold connectSession at h
  cases hchip : Vt.VtEngine.new surface.cols surface.rows with
  | error e =>
    rw [hchip] at h
    cases h
  | ok chip =>
    rw [hchip] at h
    dsimp only [Except.mapError, bind, Except.bind] at h
    generalize themed chip surface.colors = chip at h
    have hfits : (Frame.attachWriter 1 sessionId).Fits := by
      cases sessionId with
      | none => exact Nat.le_of_ble_eq_true rfl
      | some id => exact Nat.le_of_ble_eq_true rfl
    have hclaim := Sends.send (new stream surface chip) hfits
    rw [greet, Op.exec_bind] at h
    rcases hrun : (Client.send (Frame.attachWriter 1 sessionId)).exec (new stream surface chip) with
      ⟨e | _, c₁⟩
    · rw [hrun] at h
      cases h
    · rw [hrun] at h hclaim
      dsimp only at h
      have hgrant := Sends.grantCredit c₁ creditWindow
      rcases hrun' : (Client.grantCredit creditWindow).exec c₁ with ⟨e | _, c₂⟩
      · rw [hrun'] at h
        cases h
      · rw [hrun'] at h hgrant
        obtain rfl := Except.ok.inj h
        exact ⟨chip, hclaim.trans hgrant⟩

end Client

end Rill.Host
