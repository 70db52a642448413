import Rill.Daemon.Purse
import Rill.Lib.Pipe
import Rill.Link.World

/-!
# The two ends of a connection

What the daemon's client and the host's have of each other's frames: all of them in
order, those on their way included.
-/

namespace Rill.Link

open Lib Attach Kernel Daemon

/-- The frames that the other end makes of what a client was sent. -/
def arriving (qs : List Queued) : List Frame := qs.map fun q => q.frame.received

theorem received_inert {f : Frame} (h : Host.inert f = true) : f.received = f := by
  cases f with
  | attach => cases h
  | data | credit | resize | exit | refused | checkpoint | delta | resyncRequest => rfl

theorem map_received_inert {fs : List Frame} (h : ∀ f ∈ fs, Host.inert f = true) :
    fs.map Frame.received = fs :=
  List.map_congr_left (fun f hf => received_inert (h f hf)) |>.trans (List.map_id fs)

theorem dataIn_received (f : Frame) : Host.dataIn f.received = Host.dataIn f := by
  cases f with
  | attach generation sessionId protocol observe =>
    unfold Frame.received
    dsimp only
    split
    case isTrue => rfl
    case isFalse => rfl
  | data | credit | resize | exit | refused | checkpoint | delta | resyncRequest => rfl

/-- The frames `fs` are on their way from the host, and the daemon's are on their way to it or in
its inbox. -/
structure Wired (l : Line) (c : Client) (fs : List Frame) : Prop where
  up : Decoder.framing.Pipe c.decoder.buf l.host.stream.sent l.told l.host.outbox fs
  passed_le : l.passed ≤ c.log.length
  down : ∃ came rest, c.log.drop l.passed = came ++ rest ∧ arriving came = l.inbox ∧
    Decoder.framing.Pipe l.host.decoder.buf c.stream.sent l.heard c.outbox (arriving rest)

namespace Wired

variable {l l' : Line} {c c' : Client} {fs gs : List Frame}

theorem up_eq (h : Wired l c fs) :
    World.framesIn (c.decoder.buf ++ (l.host.stream.sent.drop l.told ++ l.host.outbox)) = fs := by
  have hpush : Decoder.framing.push Decoder.new.buf
      (c.decoder.buf ++ (l.host.stream.sent.drop l.told ++ l.host.outbox)) = (.ok fs, []) :=
    h.up.push_eq Decoder.front_nil
  rw [World.framesIn, Decoder.push_eq, Decoder.pushKeeping, hpush]
  rfl

/-- A host that has connected, and the client that the daemon has made for it. -/
theorem connect {down up : Stream} {surface : Host.HostSurface} {sessionId : Option UInt64}
    {host : Host.Client} (hup : up.sent = [])
    (h : Host.Client.connectSession up surface sessionId = .ok host) :
    Wired (.new host) (.new down)
      [Frame.attachWriter 1 sessionId, .credit Host.creditWindow] := by
  obtain ⟨chip, hsends⟩ := Host.Client.connect_sends h
  have hreceived : ([Frame.attachWriter 1 sessionId, .credit Host.creditWindow]).map Frame.received =
      [Frame.attachWriter 1 sessionId, .credit Host.creditWindow] := by
    have hclaim : (Frame.attachWriter 1 sessionId).received = Frame.attachWriter 1 sessionId :=
      Frame.received_of_not_inBand (Bool.and_false _)
    rw [List.map_cons, hclaim]
    rfl
  have hempty : Decoder.framing.Pipe [] [] 0 [] [] := .empty Decoder.front_nil
  have hreads := Decoder.reads_wires hsends.fits []
  rw [List.append_nil, hreceived] at hreads
  have hsent : (Host.Client.new up surface chip).stream.sent = [] := hup
  refine ⟨?_, Nat.le_refl 0, [], [], rfl, rfl, ?_⟩
  · have hbytes := hsends.bytes
    rw [hsent] at hbytes
    exact hempty.send (List.nil_prefix) hbytes hreads
  · change Decoder.framing.Pipe host.decoder.buf [] 0 [] []
    rw [hsends.decoder]
    exact hempty

theorem speak (h : Wired l c fs) (hsends : l.host.Sends l'.host gs) (htold : l'.told = l.told)
    (hheard : l'.heard = l.heard) (hpassed : l'.passed = l.passed) (hinbox : l'.inbox = l.inbox) :
    Wired l' c (fs ++ gs.map Frame.received) := by
  obtain ⟨hup, hle, came, rest, hlog, hcame, hdown⟩ := h
  have hreads := Decoder.reads_wires hsends.fits []
  rw [List.append_nil] at hreads
  refine ⟨?_, hpassed ▸ hle, came, rest, hpassed ▸ hlog, hinbox ▸ hcame, ?_⟩
  · rw [htold]
    exact hup.send hsends.grows hsends.bytes hreads
  · rw [hsends.decoder, hheard]
    exact hdown

theorem gets {qs : List Queued} (h : Wired l c fs) (hlog : c'.log = c.log ++ qs)
    (hbytes : c'.stream.sent ++ c'.outbox = c.stream.sent ++ c.outbox ++ Client.wires qs)
    (hgrows : c.stream.sent <+: c'.stream.sent) (hfits : ∀ q ∈ qs, q.frame.Fits)
    (hdecoder : c'.decoder = c.decoder) : Wired l c' fs := by
  obtain ⟨hup, hle, came, rest, hdrop, hcame, hdown⟩ := h
  have hall : ∀ f ∈ qs.map Queued.frame, f.Fits := List.forall_mem_map.mpr hfits
  have hreads := Decoder.reads_wires hall []
  rw [List.append_nil, List.flatMap_map, List.map_map] at hreads
  refine ⟨?_, ?_, came, rest ++ qs, ?_, hcame, ?_⟩
  · rw [hdecoder]
    exact hup
  · rw [hlog, List.length_append]
    exact Nat.le_trans hle (Nat.le_add_right _ _)
  · rw [hlog, List.drop_append_of_le_length hle, hdrop, List.append_assoc]
  · rw [arriving, List.map_append]
    exact hdown.send hgrows hbytes hreads

/-- A pump's read brings the host the next frames of the log. -/
theorem hear {piece : List UInt8} (h : Wired l c fs) (hinbox : l.inbox = [])
    (hpiece : piece <+: c.stream.sent.drop l.heard) :
    ∃ inbox decoder, l.host.decoder.pushKeeping piece = (.ok inbox, decoder) ∧
      Wired { l with host := { l.host with decoder }, inbox, heard := l.heard + piece.length } c
        fs := by
  obtain ⟨hup, hle, came, rest, hlog, hcame, hdown⟩ := h
  have hnil : came = [] := List.map_eq_nil_iff.mp (hcame.trans hinbox)
  rw [hnil, List.nil_append] at hlog
  obtain ⟨gs, hs, buf', hsplit, hpush, hpipe⟩ := hdown.read Decoder.front_nil hpiece
  obtain ⟨first, last, rfl, hfirst, hlast⟩ := List.map_eq_append_iff.mp hsplit
  refine ⟨gs, ⟨buf'⟩, ?_, ?_⟩
  · rw [Decoder.pushKeeping, hpush]
  · refine ⟨hup, hle, first, last, hlog, hfirst, ?_⟩
    rw [arriving, hlast]
    exact hpipe

theorem tell {piece : List UInt8} (h : Wired l c fs)
    (hpiece : piece <+: l.host.stream.sent.drop l.told) :
    ∃ gs hs decoder, fs = gs ++ hs ∧ c.decoder.push piece = .ok (gs, decoder) ∧
      ∀ c', c'.stream.sent = c.stream.sent → c'.outbox = c.outbox → c'.log = c.log →
        c'.decoder = decoder → Wired { l with told := l.told + piece.length } c' hs := by
  obtain ⟨hup, hle, came, rest, hlog, hcame, hdown⟩ := h
  obtain ⟨gs, hs, buf', rfl, hpush, hpipe⟩ := hup.read Decoder.front_nil hpiece
  refine ⟨gs, hs, ⟨buf'⟩, rfl, ?_, fun c' hsent houtbox hlog' hdecoder => ?_⟩
  · rw [Decoder.push_eq, Decoder.pushKeeping, hpush]
    rfl
  · refine ⟨hdecoder ▸ hpipe, hlog' ▸ hle, came, rest, hlog' ▸ hlog, hcame, ?_⟩
    rw [hsent, houtbox]
    exact hdown

theorem pass {f : Frame} {inbox : List Frame} (h : Wired l c fs) (hinbox : l.inbox = f :: inbox) :
    ∃ q rest, c.log.drop l.passed = q :: rest ∧ f = q.frame.received ∧
      c.log.drop (l.passed + 1) = rest ∧ Wired { l with inbox, passed := l.passed + 1 } c fs := by
  obtain ⟨hup, hle, came, rest, hlog, hcame, hdown⟩ := h
  rw [hinbox] at hcame
  obtain ⟨q, came, rfl, rfl, hcame'⟩ := List.map_eq_cons_iff.mp hcame
  have hnext : c.log.drop (l.passed + 1) = came ++ rest := by
    rw [← List.drop_drop, hlog]
    rfl
  have hlt : l.passed + 1 ≤ c.log.length := by
    have hlen := congrArg List.length hlog
    rw [List.length_drop, List.cons_append, List.length_cons] at hlen
    omega
  exact ⟨q, came ++ rest, hlog, rfl, hnext, hup, hlt, came, rest, hnext, hcame', hdown⟩

theorem lose (h : Wired l c fs) :
    Wired { l with inbox := [], passed := l.passed + l.inbox.length } c fs ∧
      c.log.drop l.passed = (c.log.drop l.passed).take l.inbox.length ++
        c.log.drop (l.passed + l.inbox.length) := by
  obtain ⟨hup, hle, came, rest, hlog, hcame, hdown⟩ := h
  have hsize : came.length = l.inbox.length := by rw [← hcame, arriving, List.length_map]
  have hrest : c.log.drop (l.passed + l.inbox.length) = rest := by
    rw [← List.drop_drop, hlog, ← hsize, List.drop_left]
  have hlen := congrArg List.length hlog
  rw [List.length_drop, List.length_append, hsize] at hlen
  refine ⟨⟨hup, ?_, [], rest, hrest, rfl, hdown⟩, ?_⟩
  · change l.passed + l.inbox.length ≤ _
    omega
  · rw [hrest, hlog, ← hsize, List.take_left]

end Wired

end Rill.Link
