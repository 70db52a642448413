import Rill.Host.Shown
import Rill.Link.Wires

/-!
# From the daemon to the glass

What a host shows is what an engine would that was fed the output the daemon has put on its
connection, in order and once each, and was resized as the host has announced.
-/

namespace Rill.Host.Client

open Lib Attach Vt
open VtEngine (Update)

/-- The size that a frame announces. -/
def asked : Frame → List Update
  | .resize cols rows _ _ => [.resize cols rows]
  | _ => []

def isFeed : Update → Bool
  | .feed _ => true
  | _ => false

theorem asked_received (f : Frame) : asked f.received = asked f := by
  cases f with
  | attach generation sessionId protocol observe =>
    unfold Frame.received
    dsimp only
    split
    case isTrue => rfl
    case isFalse => rfl
  | data | credit | resize | exit | refused | checkpoint | delta | resyncRequest => rfl

theorem news_received (f : Frame) : news f.received = news f := by
  cases f with
  | attach generation sessionId protocol observe =>
    unfold Frame.received
    dsimp only
    split
    case isTrue => rfl
    case isFalse => rfl
  | data | credit | resize | exit | refused | checkpoint | delta | resyncRequest => rfl

-- ---------------------------------------------------------------------------
-- Sending that announces no size
-- ---------------------------------------------------------------------------

/-- Nothing was sent that announces a size, and the surface is the one there was. -/
def Hushed (c c' : Client) : Prop :=
  c'.surface = c.surface ∧ ∃ gs, Sends c c' gs ∧ gs.flatMap asked = []

namespace Hushed

variable {c c' c'' : Client}

theorem of_sends (h : Sends c c' []) (hsurface : c'.surface = c.surface) : Hushed c c' :=
  ⟨hsurface, [], h, rfl⟩

theorem refl (c : Client) : Hushed c c := of_sends (.refl c) rfl

theorem trans (h : Hushed c c') (k : Hushed c' c'') : Hushed c c'' := by
  obtain ⟨hsurface, gs, hgs, hasked⟩ := h
  obtain ⟨ksurface, hs, hhs, kasked⟩ := k
  exact ⟨ksurface.trans hsurface, gs ++ hs, hgs.trans hhs, by rw [List.flatMap_append, hasked, kasked]; rfl⟩

theorem keeps_modify {f : Client → Client} (hf : ∀ c, Hushed c (f c)) :
    Op.Keeps (Hushed c) (modify f : Op Client Error Unit) := fun _ h => h.trans (hf _)

theorem surface_send (c : Client) (frame : Frame) : ((Client.send frame).exec c).2.surface = c.surface :=
  congrArg Prod.snd (setting_send frame c rfl)

theorem keeps_send {frame : Frame} (h : asked frame = []) : Op.Keeps (Hushed c) (send frame) := by
  refine fun c' hc => hc.trans ⟨surface_send c' frame, ?_⟩
  by_cases hfits : frame.Fits
  · exact ⟨_, .send c' hfits, by rw [List.flatMap_singleton, h]⟩
  · exact ⟨_, .send_unfit c' hfits, rfl⟩

theorem violate (c : Client) : Hushed c c.violate :=
  of_sends (.violate c) (congrArg Prod.snd (setting_violate rfl))

theorem flushOutbox (c : Client) : Hushed c (Client.flushOutbox.exec c).2 :=
  of_sends (.flushOutbox c) (congrArg Prod.snd (setting_flushOutbox c rfl))

theorem replenish (c : Client) (fed : Nat) : Hushed c ((Client.replenish fed).exec c).2 := by
  refine ⟨congrArg Prod.snd (setting_replenish fed c rfl), _, .replenish c fed, ?_⟩
  split
  case isTrue => rfl
  case isFalse => rfl

theorem keeps_receive (fed : Nat) (frame : Frame) : Op.Keeps (Hushed c) (receive fed frame) := by
  have hviolate : Op.Keeps (Hushed c) (modify Client.violate : Op Client Error Unit) := keeps_modify violate
  cases frame with
  | data bytes =>
    refine Op.Keeps.bind (keeps_modify fun c => of_sends (.of_eq rfl rfl rfl) rfl) fun _ => ?_
    refine Op.Keeps.bind ?_ fun _ => ?_
    · refine Op.Keeps.bind (fun c' h => h.trans (of_sends (.of_eq rfl rfl rfl) rfl)) fun replies => ?_
      exact Op.Keeps.ite (fun _ => Op.Keeps.pure _) fun _ => keeps_send rfl
    · exact Op.Keeps.bind (keeps_modify fun c => of_sends (.of_eq rfl rfl rfl) rfl) fun _ => Op.Keeps.pure _
  | exit status =>
    refine Op.Keeps.bind (keeps_modify fun c => Hushed.trans ?_ (violate _)) fun _ => Op.Keeps.pure _
    exact of_sends (.of_eq rfl rfl rfl) rfl
  | refused reason => exact hviolate.bind fun _ => Op.Keeps.throw _
  | _ => exact hviolate.bind fun _ => Op.Keeps.pure _

theorem sendInput (c : Client) (bytes : List UInt8) : Hushed c ((Client.sendInput bytes).exec c).2 := by
  rw [Client.sendInput, Op.exec_get_bind]
  by_cases hdead : (!c.alive) = true
  · rw [Op.exec_guard_pos hdead]
    exact refl c
  · rw [Op.exec_guard_neg hdead, Op.exec_modify_bind, Op.exec_modify_bind]
    exact keeps_send rfl _ (of_sends (.of_eq rfl rfl rfl) rfl)

theorem ensureSnapshots (c : Client) : Hushed c c.ensureSnapshots := by
  unfold Client.ensureSnapshots
  split
  case isTrue => exact refl c
  case isFalse => exact of_sends (.of_eq rfl rfl rfl) rfl

end Hushed

-- ---------------------------------------------------------------------------
-- Telling the engine
-- ---------------------------------------------------------------------------

/-- `c'` is `c` when its engine was told `us` and the sizes among them were announced. -/
structure Tells (c c' : Client) (us : List Update) : Prop where
  told : ∀ e told, Told e told c → Told e (told ++ us) c'
  surface : c'.surface = c.surface
  sends : ∃ gs, Sends c c' gs ∧ gs.flatMap asked = us.filter fun u => !isFeed u

namespace Tells

variable {c c' : Client}

theorem of_hushed (h : Hushed c c') (htold : ∀ e told, Told e told c → Told e told c') : Tells c c' [] where
  told e told h := by
    rw [List.append_nil]
    exact htold e told h
  surface := h.1
  sends := h.2

theorem resize (c : Client) (cols rows pxW pxH : UInt16) :
    ∃ us, Tells c ((Client.resize cols rows pxW pxH).exec c).2 us ∧ us.filter isFeed = [] := by
  cases hsize : c.chip.resize cols rows with
  | error err =>
    rw [exec_resize_error hsize]
    exact ⟨[], of_hushed (.of_sends (.of_eq rfl rfl rfl) rfl) fun _ _ h => h.jump _, rfl⟩
  | ok chip =>
    have hfits : (Frame.resize cols rows pxW pxH).Fits := Nat.le_of_ble_eq_true rfl
    have hjump : Sends c { c.jump c.scrollOffset with chip } [] := .of_eq rfl rfl rfl
    rw [exec_resize_ok hsize]
    refine ⟨[.resize cols rows], ⟨fun _ _ h => (h.resized hsize).send _, ?_, ?_⟩, rfl⟩
    · exact Hushed.surface_send { c.jump c.scrollOffset with chip } _
    · exact ⟨_, hjump.trans (.send _ hfits), rfl⟩

theorem call (c : Client) {call : Call} (h : call ≠ .pump) :
    ∃ us, Tells c ((Presenter.new c).after call).client us ∧ us.filter isFeed = [] := by
  have hjump (offset : UInt32) : Tells c (c.jump offset) [] :=
    of_hushed (.of_sends (.of_eq rfl rfl rfl) rfl) fun _ _ h => h.jump offset
  have hlook : Tells c c.ensureSnapshots [] := of_hushed (.ensureSnapshots c) fun _ _ h => h.ensureSnapshots
  cases call with
  | pump => exact absurd rfl h
  | scrollLines delta => exact ⟨[], hjump _, rfl⟩
  | sendInput bytes => exact ⟨[], of_hushed (.sendInput c bytes) fun _ _ h => h.sendInput bytes, rfl⟩
  | followLive => exact ⟨[], hjump _, rfl⟩
  | resize cols rows pxW pxH => exact resize c cols rows pxW pxH
  | cellCodepoint | cursorCell | liveCodepoint | snapshot => exact ⟨[], hlook, rfl⟩

theorem flushOutbox (c : Client) : Tells c (Client.flushOutbox.exec c).2 [] :=
  of_hushed (.flushOutbox c) fun _ _ h => h.aside (.flushOutbox c) (setting_flushOutbox c rfl)

theorem replenish (c : Client) (fed : Nat) : Tells c ((Client.replenish fed).exec c).2 [] :=
  of_hushed (.replenish c fed) fun _ _ h => h.aside (.replenish c fed) (setting_replenish fed c rfl)

theorem receive {c c' : Client} {fed n : Nat} {frame : Frame}
    (hrun : (Client.receive fed frame).exec c = (.ok n, c')) : Tells c c' (news frame) := by
  have hhushed := Hushed.keeps_receive fed frame c (.refl c)
  rw [hrun] at hhushed
  obtain ⟨hsurface, gs, hsends, hasked⟩ := hhushed
  refine ⟨fun _ _ h => h.receive hrun, hsurface, gs, hsends, hasked.trans ?_⟩
  cases frame <;> rfl

end Tells

/-- The views are made of neither the decoder nor the socket. -/
theorem Told.undecoded {e : VtEngine} {told : List Update} {c : Client} (h : Told e told c)
    (decoder : Decoder) (stream : Daemon.Stream) : Told e told { c with decoder, stream } where
  mirrors := h.mirrors.imp fun _ hold => hold.of_eq rfl rfl
  cached := h.cached
  live := h.live
  modes := h.modes

end Rill.Host.Client

namespace Rill.Link

open Lib Attach Kernel Daemon World
open Vt (VtEngine)
open Vt.VtEngine (Update)
open Host.Client (Told Tells news asked isFeed)

def outputOf (qs : List Queued) : List Update := qs.flatMap fun q => news q.frame

/-- The host's engine is one that began as its surface says and was told `told`: the output among
the frames that the host has come to, and the sizes it has announced. -/
structure Glazed (l : Line) (c : Client) : Prop where
  said : ∃ came, Said came l c
  told : ∃ chip told fs, VtEngine.new l.host.surface.cols l.host.surface.rows = .ok chip ∧
    Told (Host.Client.themed chip l.host.surface.colors) told l.host ∧
    told.filter isFeed = outputOf (c.log.take l.passed) ∧
    Decoder.framing.Pipe [] l.host.stream.sent 0 l.host.outbox fs ∧
    told.filter (fun u => !isFeed u) = fs.flatMap asked

/-- The frame that the host comes to next goes through. -/
def Goes (l : Line) : Prop :=
  ∀ fed ∈ l.fed, ∀ frame ∈ l.inbox.head?, ((Host.Client.receive fed frame).exec l.host).1.isOk = true

instance (l : Line) : Decidable (Goes l) :=
  inferInstanceAs (Decidable (∀ fed ∈ l.fed, ∀ frame ∈ l.inbox.head?,
    ((Host.Client.receive fed frame).exec l.host).1.isOk = true))

instance (w : World) : (e : Event) → Decidable (Meets Goes w e)
  | .receive slot => inferInstanceAs (Decidable (∀ l ∈ w.lines[slot]?, Goes l))
  | .connect .. | .call .. | .pump _ | .read _ | .fetch _ | .dispatch _ | .act _ => instDecidableTrue

namespace Glazed

variable {l k : Line} {c c' : Client}

theorem tell (h : Glazed l c) (hsaid : ∃ came, Said came k c') {us : List Update}
    (htells : Tells l.host k.host us)
    (hpassed : outputOf (c'.log.take k.passed) = outputOf (c.log.take l.passed) ++ us.filter isFeed) :
    Glazed k c' where
  said := hsaid
  told := by
    obtain ⟨chip, told, fs, hchip, htold, hfed, hpipe, hasked⟩ := h.told
    obtain ⟨gs, hsends, hgs⟩ := htells.sends
    have hreads := Decoder.reads_wires hsends.fits []
    rw [List.append_nil] at hreads
    rw [htells.surface]
    refine ⟨chip, told ++ us, fs ++ gs.map Frame.received, hchip, htells.told _ _ htold, ?_, ?_, ?_⟩
    · rw [List.filter_append, hfed, hpassed]
    · exact hpipe.send hsends.grows hsends.bytes hreads
    · rw [List.filter_append, hasked, ← hgs, List.flatMap_append, List.flatMap_map]
      simp only [Host.Client.asked_received]

theorem connect {down up : Stream} {surface : Host.HostSurface} {sessionId : Option UInt64}
    {host : Host.Client} (hup : up.sent = [])
    (hhost : Host.Client.connectSession up surface sessionId = .ok host) : Glazed (.new host) (.new down) where
  said := ⟨_, .connect hup hhost⟩
  told := by
    obtain ⟨hsurface, chip, hchip, htold⟩ := Host.Presenter.told_connect hhost
    obtain ⟨chip', hsends⟩ := Host.Client.connect_sends hhost
    have hreads := Decoder.reads_wires hsends.fits []
    rw [List.append_nil] at hreads
    have hbytes := hsends.bytes
    have hnone : (Host.Client.new up surface chip').stream.sent = [] := hup
    rw [hnone] at hbytes
    have hempty : Decoder.framing.Pipe [] [] 0 [] [] := .empty Decoder.front_nil
    have hpipe := hempty.send List.nil_prefix hbytes hreads
    have hline : (Line.new host).host.surface = surface := hsurface
    rw [hline]
    refine ⟨chip, [], _, hchip, htold, rfl, hpipe, ?_⟩
    rw [List.nil_append, List.flatMap_map]
    simp only [Host.Client.asked_received]
    rfl

theorem call (h : Glazed l c) {call : Host.Call} (hcall : call ≠ .pump) : Glazed (l.call call) c := by
  obtain ⟨came, hsaid⟩ := h.said
  obtain ⟨us, htells, hquiet⟩ := Tells.call l.host hcall
  refine h.tell (k := l.call call) ⟨came, hsaid.call hcall⟩ htells ?_
  rw [hquiet, List.append_nil]
  rfl

theorem start (h : Glazed l c) : Glazed l.start c := by
  obtain ⟨came, hsaid⟩ := h.said
  have hstarted := hsaid.start
  have htells := Tells.flushOutbox l.host
  unfold Line.start at hstarted ⊢
  rcases hrun : Host.Client.flushOutbox.exec l.host with ⟨e | _, host⟩
  · rw [hrun] at htells hstarted
    exact h.tell (k := { l with host }) ⟨came, hstarted⟩ htells (List.append_nil _).symm
  · rw [hrun] at htells hstarted
    exact h.tell (k := { l with host, fed := some 0 }) ⟨came, hstarted⟩ htells (List.append_nil _).symm

theorem finish (h : Glazed l c) (fed : Nat) : Glazed (l.finish fed) c := by
  obtain ⟨came, hsaid⟩ := h.said
  exact h.tell ⟨came, hsaid.finish fed⟩ (.replenish l.host fed) (List.append_nil _).symm

/-- What is decoded is not told before the host comes to it. -/
theorem decoded (h : Glazed l c) (hsaid : ∃ came, Said came k c) (hpassed : k.passed = l.passed)
    {decoder : Decoder} {stream : Stream} (hhost : k.host = { l.host with decoder, stream })
    (hsent : stream.sent = l.host.stream.sent) : Glazed k c where
  said := hsaid
  told := by
    obtain ⟨chip, told, fs, hchip, htold, hfed, hpipe, hasked⟩ := h.told
    rw [hpassed, hhost]
    refine ⟨chip, told, fs, hchip, htold.undecoded decoder stream, hfed, ?_, hasked⟩
    change Decoder.framing.Pipe [] stream.sent 0 l.host.outbox fs
    rwa [hsent]

theorem read (h : Glazed l c) (hinbox : l.inbox = []) (fed : Nat)
    (hbrings : brings (l.host.stream.reads.headD .wouldBlock) Host.bufLen
      (c.stream.sent.drop l.heard) = true) : Glazed (l.read fed) c := by
  obtain ⟨came, hsaid⟩ := h.said
  have hread := hsaid.read hinbox fed hbrings
  unfold Line.read at hread ⊢
  cases hreads : l.host.stream.reads with
  | nil => exact h.finish fed
  | cons read reads =>
    rw [hreads] at hread
    have hpop : Glazed { l with host := { l.host with stream := { l.host.stream with reads } } } c :=
      h.decoded ⟨came, hsaid.pop reads⟩ rfl rfl rfl
    cases read with
    | eof | wouldBlock => exact hpop.finish fed
    | failed => exact hpop.decoded ⟨came, hread⟩ (by simp [Line.fail, hinbox]) rfl rfl
    | data bytes =>
      dsimp only at hread ⊢
      by_cases hempty : (bytes.take Host.bufLen).isEmpty = true
      · rw [if_pos hempty]
        exact hpop.finish fed
      rw [if_neg hempty] at hread ⊢
      rw [Host.Client.decode, Op.exec_of] at hread ⊢
      dsimp only at hread ⊢
      rcases hpush : l.host.decoder.pushKeeping (bytes.take Host.bufLen) with ⟨e | frames, decoder⟩
      · rw [hpush] at hread
        dsimp only [Except.mapError] at hread ⊢
        exact hpop.decoded ⟨came, hread⟩ (by simp [Line.fail, hinbox]) rfl rfl
      · rw [hpush] at hread
        exact hpop.decoded ⟨came, hread⟩ rfl rfl rfl

theorem filter_news (f : Frame) : (news f).filter isFeed = news f := by cases f <;> rfl

theorem receive (h : Glazed l c) (hgoes : Goes l) {fed : Nat} (hfed : l.fed = some fed) :
    Glazed (l.receive c.log fed) c := by
  obtain ⟨came, hsaid⟩ := h.said
  have hreceived := hsaid.receive c.log fed
  obtain ⟨fs, hwired, -⟩ := hsaid
  unfold Line.receive at hreceived ⊢
  cases hinbox : l.inbox with
  | nil => exact h
  | cons frame inbox =>
    rw [hinbox] at hreceived
    have hok := hgoes fed hfed frame (by rw [hinbox]; rfl)
    obtain ⟨q, rest, hdrop, rfl, hrest, -⟩ := hwired.pass hinbox
    dsimp only at hreceived ⊢
    rcases hrun : (Host.Client.receive fed q.frame.received).exec l.host with ⟨e | fed', host⟩
    · rw [hrun] at hok
      cases hok
    · rw [hrun] at hreceived
      refine h.tell ⟨came, hreceived⟩ (Tells.receive hrun) ?_
      have hnext : c.log.take (l.passed + 1) = c.log.take l.passed ++ [q] := by
        rw [List.take_add, hdrop]
        rfl
      rw [filter_news, Host.Client.news_received]
      change outputOf (c.log.take (l.passed + 1)) = _
      rw [hnext, outputOf, List.flatMap_append, List.flatMap_singleton]
      rfl

theorem grown (h : Glazed l c) (hc : Grown c c') : Glazed l c' := by
  obtain ⟨came, hsaid⟩ := h.said
  obtain ⟨qs, hlog, -⟩ := hc.sent
  have hgrown := hsaid.grown hc
  obtain ⟨fs, hwired, -⟩ := hsaid
  refine ⟨⟨came, hgrown⟩, ?_⟩
  rw [hlog, List.take_append_of_le_length hwired.passed_le]
  exact h.told

theorem carried : Carried .nothing Goes fun _ => Glazed where
  connect _ := connect
  call h hcall := call h hcall
  start h := start h
  read h hinbox fed hbrings := read h hinbox fed hbrings
  receive h hgoes hfed := receive h hgoes hfed
  grown h hc := grown h hc
  unread reads h := ⟨h.said.imp fun _ hsaid => hsaid.unread reads, h.told⟩
  fetch reads h hpiece hpush :=
    ⟨h.said.elim fun _ hsaid => ⟨_, hsaid.fetch reads hpiece hpush⟩, h.told⟩
  come := id

end Glazed

namespace World

/-- Where no frame that a host comes to fails it, what it shows is what an engine shows that began
as its surface says and was told just the output that it has come to on its connection, in the order
the daemon has put it there, and the sizes that the host has announced. -/
theorem glass_shows_log {turns : List Turn} {size : Winsize} {isWorker : Bool} {d₀ : Daemon} {w : World}
    (hbind : Daemon.bind (.spawn size turns) size isWorker = .ok d₀)
    (hrun : Runs Takes (Meets Goes) (.new d₀) w) {slot : Nat} {l : Line} {c : Client}
    (hl : w.lines[slot]? = some l) (hc : w.daemon.clients[slot]? = some c) :
    ∃ (chip : VtEngine) (told : List Update) (v : Vt.PodGrid),
      VtEngine.new l.host.surface.cols l.host.surface.rows = .ok chip ∧
      told.filter isFeed = outputOf (c.log.take l.passed) ∧
      told.filter (fun u => !isFeed u) =
        (framesIn (l.host.stream.sent ++ l.host.outbox)).flatMap asked ∧
      l.host.snapshot.1 = .ok v ∧
      v.undamaged = Host.viewed
        (told.foldl VtEngine.update (Host.Client.themed chip l.host.surface.colors)) l.host.scrollOffset := by
  obtain ⟨ns, hplumbed⟩ := Plumbed.run Glazed.carried (bind_ok hbind).1 hrun
  obtain ⟨n, -, -, chip, told, fs, hchip, htold, hfed, hpipe, hasked⟩ := hplumbed.exists_note hl hc
  obtain ⟨v, w, hv, -⟩ := l.host.ensureSnapshots_some
  have hview := htold.ensureSnapshots.cached v hv
  rw [Host.Client.scrollOffset_ensureSnapshots] at hview
  refine ⟨chip, told, v, hchip, hfed, ?_, ?_, hview⟩
  · have hpush : Decoder.framing.push Decoder.new.buf (l.host.stream.sent ++ l.host.outbox) = (.ok fs, []) :=
      hpipe.push_eq Decoder.front_nil
    rw [hasked, framesIn, Decoder.push_eq, Decoder.pushKeeping, hpush]
    rfl
  · simp only [Host.Client.snapshot, hv]

/-- Three letters, on a host that has made its grid smaller before it came to them. -/
theorem glass_shows_log_abc :
    ∃ d₀ w,
      Daemon.bind (.spawn ⟨3, 1, 0, 0⟩ [⟨[97, 98, 99], none, none, none⟩]) ⟨3, 1, 0, 0⟩ false = .ok d₀ ∧
      Runs Takes (Meets Goes) (.new d₀) w ∧ ∃ l ∈ w.lines[0]?, ∃ c ∈ w.daemon.clients[0]?,
        outputOf (c.log.take l.passed) = [.feed [97, 98, 99]] ∧
        ∃ (chip : VtEngine) (told : List Update) (v : Vt.PodGrid),
          told.filter isFeed = [.feed [97, 98, 99]] ∧ l.host.snapshot.1 = .ok v ∧
          v.undamaged = Host.viewed (told.foldl VtEngine.update chip) l.host.scrollOffset := by
  obtain ⟨d₀, w, hbind, hrun, hfound⟩ := exists_followed (Meets Goes)
    [⟨[97, 98, 99], none, none, none⟩] ⟨3, 1, 0, 0⟩
    [.connect
        ⟨[.data ((Frame.attachWriter 1 none).wire ++ (Frame.credit Host.creditWindow).wire)],
          [.accept 1000, .accept 1000], []⟩
        ⟨[.data (Frame.data [97, 98, 99]).wire], [.accept 100, .accept 100, .accept 100], []⟩
        ⟨3, 1, none⟩ none,
      .fetch 0, .dispatch ⟨0, 3600⟩, .dispatch ⟨0, 3600⟩, .act (.drain ⟨1⟩), .act .flush,
      .call 0 (.resize 2 1 0 0), .pump 0, .read 0, .receive 0]
    (p := fun w => w.lines[0]?.any fun l => w.daemon.clients[0]?.any fun c =>
      l.passed = 1 ∧ c.log.map Queued.frame = [.data [97, 98, 99]])
    (by decide +kernel)
  simp only [Option.any_eq_true, decide_eq_true_eq] at hfound
  obtain ⟨l, hl, c, hc, hpassed, hlog⟩ := hfound
  obtain ⟨chip, told, v, -, hfed, -, hv, hview⟩ := glass_shows_log hbind hrun hl hc
  have houtput : outputOf (c.log.take l.passed) = [.feed [97, 98, 99]] := by
    have hframes : outputOf (c.log.take l.passed) =
        ((c.log.map Queued.frame).take l.passed).flatMap news := by
      rw [outputOf, ← List.map_take, List.flatMap_map]
    rw [hframes, hlog, hpassed]
    rfl
  exact ⟨d₀, w, hbind, hrun, l, hl, c, hc, houtput, _, told, v, hfed.trans houtput, hv, hview⟩

end World

end Rill.Link
