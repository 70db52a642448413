import Rill.Link.Ends

/-!
# Whole frames, in order

Whatever a daemon of any kind does to the connections it keeps, it only ever puts whole
frames behind those it has sent. So in every world each end comes to the other's frames in
order, each once, and to no malformed one.
-/

namespace Rill.Link

open Lib Attach Kernel Daemon World

-- ---------------------------------------------------------------------------
-- One connection
-- ---------------------------------------------------------------------------

/-- The daemon has read the frames `came` of the host, and what else the host has sent is on its
way. -/
def Said (came : List Frame) (l : Line) (c : Client) : Prop :=
  ∃ fs, Wired l c fs ∧ Decoder.framing.Pipe [] l.host.stream.sent 0 l.host.outbox (came ++ fs)

namespace Said

variable {came : List Frame} {l l' : Line} {c : Client}

theorem framesIn_eq (h : Said came l c) :
    framesIn (l.host.stream.sent ++ l.host.outbox) = came ++
      framesIn (c.decoder.buf ++ (l.host.stream.sent.drop l.told ++ l.host.outbox)) := by
  obtain ⟨fs, hwired, hpipe⟩ := h
  have hpush : Decoder.framing.push Decoder.new.buf (l.host.stream.sent ++ l.host.outbox) =
      (.ok (came ++ fs), []) := hpipe.push_eq Decoder.front_nil
  rw [hwired.up_eq, framesIn, Decoder.push_eq, Decoder.pushKeeping, hpush]
  rfl

theorem connect {down up : Stream} {surface : Host.HostSurface} {sessionId : Option UInt64}
    {host : Host.Client} (hup : up.sent = [])
    (h : Host.Client.connectSession up surface sessionId = .ok host) : Said [] (.new host) (.new down) :=
  have hwired := Wired.connect hup h
  ⟨_, hwired, hwired.up⟩

/-- A connection that has grown is still one of whole frames. -/
theorem grown (h : Said came l c) {c' : Client} (hc : Grown c c') : Said came l c' := by
  obtain ⟨fs, hwired, hpipe⟩ := h
  obtain ⟨qs, hlog, hfits, hbytes⟩ := hc.sent
  exact ⟨fs, hwired.gets hlog hbytes hc.grows hfits hc.decoder, hpipe⟩

theorem speak {gs : List Frame} (h : Said came l c) (hsends : l.host.Sends l'.host gs)
    (htold : l'.told = l.told) (hheard : l'.heard = l.heard) (hpassed : l'.passed = l.passed)
    (hinbox : l'.inbox = l.inbox) : Said came l' c := by
  obtain ⟨fs, hwired, hpipe⟩ := h
  have hreads := Decoder.reads_wires hsends.fits []
  rw [List.append_nil] at hreads
  refine ⟨_, hwired.speak hsends htold hheard hpassed hinbox, ?_⟩
  rw [← List.append_assoc]
  exact hpipe.send hsends.grows hsends.bytes hreads

theorem call (h : Said came l c) {call : Host.Call} (hcall : call ≠ .pump) : Said came (l.call call) c := by
  obtain ⟨gs, hsends, -⟩ := Host.Client.Mutters.call l.host hcall
  exact h.speak hsends rfl rfl rfl rfl

theorem start (h : Said came l c) : Said came l.start c := by
  have hflush := Host.Client.Sends.flushOutbox l.host
  unfold Line.start
  rcases hrun : Host.Client.flushOutbox.exec l.host with ⟨e | _, host⟩
  · rw [hrun] at hflush
    exact h.speak hflush rfl rfl rfl rfl
  · rw [hrun] at hflush
    exact h.speak hflush rfl rfl rfl rfl

theorem finish (h : Said came l c) (fed : Nat) : Said came (l.finish fed) c :=
  h.speak (.replenish l.host fed) rfl rfl rfl rfl

theorem fail (h : Said came l c) : Said came l.fail c := by
  obtain ⟨fs, hwired, hpipe⟩ := h
  have hlost := hwired.lose.1
  exact ⟨fs, ⟨hlost.up, hlost.passed_le, hlost.down⟩, hpipe⟩

theorem pop (h : Said came l c) (reads : List Read) :
    Said came { l with host := { l.host with stream := { l.host.stream with reads } } } c := by
  obtain ⟨fs, hwired, hpipe⟩ := h
  exact ⟨fs, ⟨hwired.up, hwired.passed_le, hwired.down⟩, hpipe⟩

theorem read (h : Said came l c) (hinbox : l.inbox = []) (fed : Nat)
    (hbrings : brings (l.host.stream.reads.headD .wouldBlock) Host.bufLen
      (c.stream.sent.drop l.heard) = true) : Said came (l.read fed) c := by
  unfold Line.read
  cases hreads : l.host.stream.reads with
  | nil => exact h.finish fed
  | cons read reads =>
    rw [hreads] at hbrings
    have hpop := h.pop reads
    dsimp only [List.headD_cons] at hbrings ⊢
    cases read with
    | eof | wouldBlock => exact hpop.finish fed
    | failed => exact hpop.fail
    | data bytes =>
      dsimp only
      split
      case isTrue => exact hpop.finish fed
      case isFalse =>
        obtain ⟨fs, hwired, hpipe⟩ := hpop
        obtain ⟨inbox, decoder, hpush, hheard⟩ := hwired.hear hinbox (List.isPrefixOf_iff_prefix.mp hbrings)
        rw [Host.Client.decode, Op.exec_of]
        dsimp only at hpush ⊢
        rw [hpush]
        exact ⟨fs, ⟨hheard.up, hheard.passed_le, hheard.down⟩, hpipe⟩

theorem receive (h : Said came l c) (log : List Queued) (fed : Nat) : Said came (l.receive log fed) c := by
  unfold Line.receive
  cases hinbox : l.inbox with
  | nil => exact h
  | cons frame inbox =>
    obtain ⟨fs, hwired, hpipe⟩ := h
    obtain ⟨q, rest, hdrop, hframe, hrest, hwired⟩ := hwired.pass hinbox
    have hpassed : Said came { l with inbox, passed := l.passed + 1 } c := ⟨fs, hwired, hpipe⟩
    obtain ⟨⟨gs, hsends, -⟩, -⟩ := Host.Client.Mutters.receive l.host fed frame
    dsimp only
    rcases hrun : (Host.Client.receive fed frame).exec l.host with ⟨e | fed', host⟩
    · rw [hrun] at hsends
      let k : Line := { l with
        host
        inbox
        passed := l.passed + 1
        feeding := l.feeding ++ (log.drop l.passed).take 1 }
      have hspoken : Said came k c := hpassed.speak hsends rfl rfl rfl rfl
      exact hspoken.fail
    · rw [hrun] at hsends
      exact hpassed.speak hsends rfl rfl rfl rfl

theorem unread (h : Said came l c) (reads : List Read) :
    Said came l { c with stream := { c.stream with reads } } := by
  obtain ⟨fs, hwired, hpipe⟩ := h
  exact ⟨fs, ⟨hwired.up, hwired.passed_le, hwired.down⟩, hpipe⟩

theorem fetch {piece : List UInt8} {gs : List Frame} {decoder : Decoder} (h : Said came l c)
    (reads : List Read) (hpiece : piece <+: l.host.stream.sent.drop l.told)
    (hpush : c.decoder.push piece = .ok (gs, decoder)) :
    Said (came ++ gs) { l with told := l.told + piece.length }
      { c with stream := { c.stream with reads }, decoder } := by
  obtain ⟨fs, hwired, hpipe⟩ := h
  obtain ⟨gs', hs, decoder', rfl, hpush', htold⟩ := hwired.tell hpiece
  rw [hpush] at hpush'
  obtain ⟨rfl, rfl⟩ := Prod.mk.inj (Except.ok.inj hpush')
  refine ⟨hs, htold { c with stream := { c.stream with reads }, decoder } rfl rfl rfl rfl, ?_⟩
  rw [List.append_assoc]
  exact hpipe

end Said

-- ---------------------------------------------------------------------------
-- Every event
-- ---------------------------------------------------------------------------

namespace World

/-- What an event makes of a world. -/
inductive Comes (w : World) : Event → World → Prop
  | connect {down up : Stream} {surface : Host.HostSurface} {sessionId : Option UInt64}
    {host : Host.Client} (hbatch : w.batch = []) (hdown : down.sent = []) (hup : up.sent = [])
    (hhost : Host.Client.connectSession up surface sessionId = .ok host) :
    Comes w (.connect down up surface sessionId)
      { w with daemon := w.daemon.acceptClient down, lines := w.lines ++ [.new host] }
  | call {slot : Nat} {l : Line} {call : Host.Call} (hl : w.lines[slot]? = some l)
    (hcall : call ≠ .pump) : Comes w (.call slot call) (w.setLine slot (l.call call))
  | pump {slot : Nat} {l : Line} (hl : w.lines[slot]? = some l) :
    Comes w (.pump slot) (w.setLine slot l.start)
  | read {slot fed : Nat} {l : Line} {c : Client} (hl : w.lines[slot]? = some l)
    (hc : w.daemon.clients[slot]? = some c) (hfed : l.fed = some fed) (hinbox : l.inbox = [])
    (hbrings : brings (l.host.stream.reads.headD .wouldBlock) Host.bufLen
      (c.stream.sent.drop l.heard) = true) : Comes w (.read slot) (w.setLine slot (l.read fed))
  | receive {slot fed : Nat} {l : Line} {c : Client} (hl : w.lines[slot]? = some l)
    (hc : w.daemon.clients[slot]? = some c) (hfed : l.fed = some fed) :
    Comes w (.receive slot) (w.setLine slot (l.receive c.log fed))
  | fetch {slot : Nat} {l : Line} {c : Client} {batch : List Frame} {d : Daemon} (hbatch : w.batch = [])
    (hl : w.lines[slot]? = some l) (hc : w.daemon.clients[slot]? = some c)
    (hbrings : brings (c.stream.reads.headD .wouldBlock) socketBuf
      (l.host.stream.sent.drop l.told) = true)
    (hfetch : (fetchFrames slot).exec w.daemon = (.ok batch, d)) :
    Comes w (.fetch slot) ⟨d, if w.lost d then w.lines.eraseIdx slot
      else w.lines.set slot { l with
        told := l.told + sizeOf (c.stream.reads.headD .wouldBlock) socketBuf }, batch, slot⟩
  | dispatch {m : Moment} {f : Frame} {batch : List Frame} {d : Daemon} (hbatch : w.batch = f :: batch)
    (hdispatch : (dispatchFrame m w.reading f).exec w.daemon = (.ok (), d)) :
    Comes w (.dispatch m)
      ⟨d, if w.lost d then w.lines.eraseIdx w.reading else w.lines, batch, w.reading⟩
  | act {a : Act} {d : Daemon} (hbatch : w.batch = []) (hapart : apart a = true)
    (hexec : a.run.exec w.daemon = (.ok (), d)) : Comes w (.act a) (w.after a d)

theorem Takes.comes {w w' : World} {e : Event} (htakes : w.Takes e w') : w.Comes e w' := by
  unfold World.Takes at htakes
  cases e with
  | connect down up surface sessionId =>
    rw [World.step] at htakes
    split at htakes
    case isFalse => cases htakes
    case isTrue hready =>
      split at htakes
      case h_2 => cases htakes
      case h_1 host hhost =>
        simp only [Bool.and_eq_true, List.isEmpty_iff] at hready
        obtain rfl := Option.some.inj htakes
        exact .connect hready.1.1 hready.1.2 hready.2 hhost
  | call slot call =>
    obtain ⟨l, hl, htakes⟩ := Option.bind_eq_some_iff.mp htakes
    split at htakes
    case isFalse => cases htakes
    case isTrue hready =>
      simp only [Bool.and_eq_true, decide_eq_true_eq] at hready
      obtain rfl := Option.some.inj htakes
      exact .call hl hready.2
  | pump slot =>
    obtain ⟨l, hl, htakes⟩ := Option.bind_eq_some_iff.mp htakes
    split at htakes
    case isFalse => cases htakes
    case isTrue =>
      obtain rfl := Option.some.inj htakes
      exact .pump hl
  | read slot =>
    obtain ⟨l, hl, htakes⟩ := Option.bind_eq_some_iff.mp htakes
    obtain ⟨c, hc, htakes⟩ := Option.bind_eq_some_iff.mp htakes
    obtain ⟨fed, hfed, htakes⟩ := Option.bind_eq_some_iff.mp htakes
    dsimp only at htakes
    split at htakes
    case isFalse => cases htakes
    case isTrue hready =>
      simp only [Bool.and_eq_true, List.isEmpty_iff] at hready
      obtain rfl := Option.some.inj htakes
      exact .read hl hc hfed hready.1 hready.2
  | receive slot =>
    obtain ⟨l, hl, htakes⟩ := Option.bind_eq_some_iff.mp htakes
    obtain ⟨c, hc, htakes⟩ := Option.bind_eq_some_iff.mp htakes
    obtain ⟨fed, hfed, htakes⟩ := Option.bind_eq_some_iff.mp htakes
    split at htakes
    case isTrue => cases htakes
    case isFalse =>
      obtain rfl := Option.some.inj htakes
      exact .receive hl hc hfed
  | fetch slot =>
    obtain ⟨l, hl, htakes⟩ := Option.bind_eq_some_iff.mp htakes
    obtain ⟨c, hc, htakes⟩ := Option.bind_eq_some_iff.mp htakes
    dsimp only at htakes
    split at htakes
    case isFalse => cases htakes
    case isTrue hready =>
      simp only [Bool.and_eq_true, List.isEmpty_iff] at hready
      rcases hfetch : (fetchFrames slot).exec w.daemon with ⟨e | batch, d⟩
      · rw [hfetch] at htakes
        cases htakes
      · rw [hfetch] at htakes
        obtain rfl := Option.some.inj htakes
        exact .fetch hready.1 hl hc hready.2 hfetch
  | dispatch m =>
    rw [World.step] at htakes
    split at htakes
    case h_1 => cases htakes
    case h_2 frame batch hbatch =>
      rcases hdispatch : (dispatchFrame m w.reading frame).exec w.daemon with ⟨e | _, d⟩
      · rw [hdispatch] at htakes
        cases htakes
      · rw [hdispatch] at htakes
        obtain rfl := Option.some.inj htakes
        exact .dispatch hbatch hdispatch
  | act a =>
    rw [World.step] at htakes
    split at htakes
    case isFalse => cases htakes
    case isTrue hready =>
      simp only [Bool.and_eq_true, List.isEmpty_iff] at hready
      rcases hexec : a.run.exec w.daemon with ⟨e | _, d⟩
      · rw [hexec] at htakes
        cases htakes
      · rw [hexec] at htakes
        obtain rfl := Option.some.inj htakes
        exact .act hready.1.1 hready.1.2 hexec

end World

-- ---------------------------------------------------------------------------
-- Every connection
-- ---------------------------------------------------------------------------

/-- What is noted of a connection: of the `n`th to come, of what the daemon has read of it, and when
the daemon comes to the next frame of that. -/
structure Notes (γ : Type) where
  fresh : Nat → γ
  read : γ → List Frame → γ
  come : γ → γ

def Notes.nothing : Notes Unit := ⟨fun _ => (), fun _ _ => (), fun _ => ()⟩

/-- The notes of all connections, after an event that leads from `w` to `w'`. -/
def Notes.after {γ : Type} (N : Notes γ) (count : Nat) (w w' : World) (ns : List γ) : Event → List γ
  | .connect .. => ns ++ [N.fresh count]
  | .fetch slot =>
    if w.lost w'.daemon then ns.eraseIdx slot else ns.modify slot fun n => N.read n w'.batch
  | .dispatch _ => if w.lost w'.daemon then ns.eraseIdx w.reading else ns.modify w.reading N.come
  | .act .flush =>
    match w.daemon.clients.findIdx? (failing w.daemon) with
    | some slot => ns.eraseIdx slot
    | none => ns
  | _ => ns

/-- What `P` says of the two ends of a connection and of what is noted of it, no step undoes; nor
does the host come to a frame but where `R` holds of its end. -/
structure Carried {γ : Type} (N : Notes γ) (R : Line → Prop) (P : γ → Line → Client → Prop) : Prop where
  connect : ∀ {down up : Stream} {surface : Host.HostSurface} {sessionId : Option UInt64}
    {host : Host.Client} (count : Nat), up.sent = [] →
    Host.Client.connectSession up surface sessionId = .ok host → P (N.fresh count) (.new host) (.new down)
  call : ∀ {n l c} {call : Host.Call}, P n l c → call ≠ .pump → P n (l.call call) c
  start : ∀ {n l c}, P n l c → P n l.start c
  read : ∀ {n l c}, P n l c → l.inbox = [] → ∀ fed,
    brings (l.host.stream.reads.headD .wouldBlock) Host.bufLen (c.stream.sent.drop l.heard) = true →
    P n (l.read fed) c
  receive : ∀ {n l c} {fed : Nat}, P n l c → R l → l.fed = some fed → P n (l.receive c.log fed) c
  grown : ∀ {n l c c'}, P n l c → Grown c c' → P n l c'
  unread : ∀ {n l c} (reads : List Read), P n l c →
    P (N.read n []) l { c with stream := { c.stream with reads } }
  fetch : ∀ {n l c} {piece : List UInt8} {gs : List Frame} {decoder : Decoder} (reads : List Read),
    P n l c → piece <+: l.host.stream.sent.drop l.told → c.decoder.push piece = .ok (gs, decoder) →
    P (N.read n gs) { l with told := l.told + piece.length }
      { c with stream := { c.stream with reads }, decoder }
  come : ∀ {n l c}, P n l c → P (N.come n) l c

/-- A host comes to a frame just where `R` holds of its end. -/
def Meets (R : Line → Prop) (w : World) : Event → Prop
  | .receive slot => ∀ l ∈ w.lines[slot]?, R l
  | _ => True

/-- Every connection has two ends and a note, and `P` says of them what it says. -/
structure Plumbed {γ : Type} (P : γ → Line → Client → Prop) (w : World) (ns : List γ) : Prop where
  length : w.lines.length = w.daemon.clients.length
  noted : ns.length = w.lines.length
  ends : ∀ (i : Nat) (n : γ) (l : Line) (c : Client), ns[i]? = some n → w.lines[i]? = some l →
    w.daemon.clients[i]? = some c → P n l c

namespace Plumbed

variable {γ : Type} {N : Notes γ} {R : Line → Prop} {P : γ → Line → Client → Prop} {w : World}
  {ns : List γ}

theorem new {d₀ : Daemon} (hnone : d₀.clients = []) : Plumbed P (.new d₀) [] where
  length := by
    change 0 = d₀.clients.length
    rw [hnone]
    rfl
  noted := rfl
  ends i n l c hn _ _ := by simp at hn

theorem exists_note (h : Plumbed P w ns) {i : Nat} {l : Line} {c : Client} (hl : w.lines[i]? = some l)
    (hc : w.daemon.clients[i]? = some c) : ∃ n, ns[i]? = some n ∧ P n l c := by
  have hlt : i < ns.length := h.noted ▸ (List.getElem?_eq_some_iff.mp hl).1
  have hn := List.getElem?_eq_getElem hlt
  exact ⟨ns[i], hn, h.ends i _ l c hn hl hc⟩

theorem renote (h : Plumbed P w ns) {f : γ → γ} (hf : ∀ {n l c}, P n l c → P (f n) l c) (slot : Nat) :
    Plumbed P w (ns.modify slot f) where
  length := h.length
  noted := (List.length_modify ..).trans h.noted
  ends i n l c hn hl hc := by
    obtain ⟨n, hn', rfl⟩ := Option.map_eq_some_iff.mp ((List.getElem?_modify ..).symm.trans hn)
    have hends := h.ends i n l c hn' hl hc
    split
    case isTrue => exact hf hends
    case isFalse => exact hends

theorem setLine (h : Plumbed P w ns) {slot : Nat} {l l' : Line} (hl : w.lines[slot]? = some l)
    (hends : ∀ n c, w.daemon.clients[slot]? = some c → P n l c → P n l' c) :
    Plumbed P (w.setLine slot l') ns where
  length := (List.length_set ..).trans h.length
  noted := h.noted.trans (List.length_set ..).symm
  ends i n k c hn hk hc := by
    have hlt := (List.getElem?_eq_some_iff.mp hl).1
    change (w.lines.set slot l')[i]? = some k at hk
    by_cases hi : i = slot
    · subst hi
      rw [List.getElem?_set_self hlt] at hk
      obtain rfl := Option.some.inj hk
      exact hends n c hc (h.ends i n l c hn hl hc)
    · rw [List.getElem?_set_ne fun h => hi h.symm] at hk
      exact h.ends i n k c hn hk hc

/-- The daemon has done something to the connections and kept them all. -/
theorem grown (hP : Carried N R P) (h : Plumbed P w ns) {d : Daemon} (hd : AllGrown w.daemon d)
    (batch : List Frame) (reading : Nat) : Plumbed P ⟨d, w.lines, batch, reading⟩ ns where
  length := h.length.trans hd.length_eq
  noted := h.noted
  ends i n l c' hn hl hc' := by
    have hpair := forall₂_getElem? hd i
    rw [hc'] at hpair
    cases hc : w.daemon.clients[i]? with
    | none =>
      rw [hc] at hpair
      cases hpair
    | some c =>
      rw [hc] at hpair
      obtain ⟨hgrown⟩ := hpair
      exact hP.grown (h.ends i n l c hn hl hc) hgrown

/-- A connection is gone, with the host at its other end. -/
theorem erase (h : Plumbed P w ns) {d : Daemon} {slot : Nat}
    (hclients : d.clients = w.daemon.clients.eraseIdx slot) (batch : List Frame) (reading : Nat) :
    Plumbed P ⟨d, w.lines.eraseIdx slot, batch, reading⟩ (ns.eraseIdx slot) where
  length := by
    change _ = d.clients.length
    rw [hclients]
    exact length_eraseIdx_congr h.length slot
  noted := length_eraseIdx_congr h.noted slot
  ends i n l c hn hl hc := by
    obtain ⟨j, -, hslots⟩ := exists_slot slot i
    change (w.lines.eraseIdx slot)[i]? = some l at hl
    change d.clients[i]? = some c at hc
    rw [hclients] at hc
    rw [hslots] at hn hl hc
    exact h.ends j n l c hn hl hc

/-- One connection has moved at both ends, and so has its note. -/
theorem move (h : Plumbed P w ns) {slot : Nat} {l l' : Line} {c c' : Client} {d : Daemon} {f : γ → γ}
    (hl : w.lines[slot]? = some l) (hc : w.daemon.clients[slot]? = some c)
    (hclients : d.clients = w.daemon.clients.set slot c') (hends : ∀ n, P n l c → P (f n) l' c')
    (batch : List Frame) (reading : Nat) :
    Plumbed P ⟨d, w.lines.set slot l', batch, reading⟩ (ns.modify slot f) where
  length := by
    change _ = d.clients.length
    rw [hclients, List.length_set, List.length_set]
    exact h.length
  noted := (List.length_modify ..).trans (h.noted.trans (List.length_set ..).symm)
  ends i n k b hn hk hb := by
    have hlt := (List.getElem?_eq_some_iff.mp hl).1
    have hlt' := (List.getElem?_eq_some_iff.mp hc).1
    change (w.lines.set slot l')[i]? = some k at hk
    change d.clients[i]? = some b at hb
    rw [hclients] at hb
    by_cases hi : i = slot
    · subst hi
      rw [List.getElem?_set_self hlt] at hk
      rw [List.getElem?_set_self hlt'] at hb
      obtain rfl := Option.some.inj hk
      obtain rfl := Option.some.inj hb
      obtain ⟨n, hn', rfl⟩ := Option.map_eq_some_iff.mp ((List.getElem?_modify_eq ..).symm.trans hn)
      exact hends n (h.ends i n l c hn' hl hc)
    · rw [List.getElem?_set_ne fun h => hi h.symm] at hk hb
      rw [List.getElem?_modify_ne f ns (Ne.symm hi)] at hn
      exact h.ends i n k b hn hk hb

theorem connect (hP : Carried N R P) (h : Plumbed P w ns) {down up : Stream}
    {surface : Host.HostSurface} {sessionId : Option UInt64} {host : Host.Client}
    (hup : up.sent = []) (hhost : Host.Client.connectSession up surface sessionId = .ok host)
    (count : Nat) :
    Plumbed P { w with daemon := w.daemon.acceptClient down, lines := w.lines ++ [.new host] }
      (ns ++ [N.fresh count]) where
  length := by
    have hlength := h.length
    change (w.lines ++ [_]).length = (w.daemon.clients ++ [_]).length
    simpa using hlength
  noted := by simp [h.noted]
  ends i n l c hn hl hc := by
    change (w.lines ++ [Line.new host])[i]? = some l at hl
    change (w.daemon.clients ++ [Client.new down])[i]? = some c at hc
    by_cases hi : i < w.lines.length
    · rw [List.getElem?_append_left hi] at hl
      rw [List.getElem?_append_left (h.length ▸ hi)] at hc
      rw [List.getElem?_append_left (h.noted.symm ▸ hi)] at hn
      exact h.ends i n l c hn hl hc
    · have hle := Nat.le_of_not_lt hi
      rw [List.getElem?_append_right hle, List.getElem?_singleton] at hl
      rw [List.getElem?_append_right (h.length ▸ hle), List.getElem?_singleton] at hc
      rw [List.getElem?_append_right (h.noted.symm ▸ hle), List.getElem?_singleton, h.noted] at hn
      split at hl
      case isFalse => cases hl
      case isTrue =>
        split at hc
        case isFalse => cases hc
        case isTrue =>
          rw [if_pos (by assumption)] at hn
          obtain rfl := Option.some.inj hn
          obtain rfl := Option.some.inj hl
          obtain rfl := Option.some.inj hc
          exact hP.connect count hup hhost

theorem lost_of_clients {d : Daemon} {slot : Nat} {c : Client} (hc : w.daemon.clients[slot]? = some c)
    (hclients : d.clients = w.daemon.clients.eraseIdx slot) : w.lost d = true := by
  have hlt := (List.getElem?_eq_some_iff.mp hc).1
  refine decide_eq_true ?_
  rw [hclients, List.length_eraseIdx_of_lt hlt]
  omega

theorem kept_of_length {d : Daemon} (h : d.clients.length = w.daemon.clients.length) : w.lost d = false :=
  decide_eq_false (h ▸ Nat.lt_irrefl _)

theorem flush (hP : Carried N R P) (h : Plumbed P w ns) {d : Daemon}
    (hflush : flushOutbound.exec w.daemon = (.ok (), d)) (count : Nat) (w' : World) :
    Plumbed P (w.after .flush d) (N.after count w w' ns (.act .flush)) := by
  rcases flush_cases hflush with
    ⟨hnone, -, hserved⟩ | ⟨l₁, c, l₂, k₁, hsplit, hslot, -, -, hclients, hserved⟩
  · simp only [World.after, Notes.after, hnone]
    exact h.grown hP (hserved.imp fun _ _ => .of_served) w.batch w.reading
  · simp only [World.after, Notes.after, hslot]
    have hothers : List.Forall₂ Grown (w.daemon.clients.eraseIdx l₁.length) d.clients := by
      rw [hsplit, eraseIdx_split, hclients]
      exact List.rel_append (hserved.imp fun _ _ => .of_served) (List.forall₂_same.mpr fun c _ => .refl c)
    have hgone := h.erase (d := w.daemon.setClients (w.daemon.clients.eraseIdx l₁.length)) rfl
      w.batch w.reading
    exact hgone.grown hP hothers w.batch w.reading

theorem act (hP : Carried N R P) (h : Plumbed P w ns) {a : Act} (hapart : apart a = true) {d : Daemon}
    (hexec : a.run.exec w.daemon = (.ok (), d)) (count : Nat) (w' : World) :
    Plumbed P (w.after a d) (N.after count w w' ns (.act a)) := by
  have hkept {m : DaemonM Unit} (hm : Op.Keeps (AllGrown w.daemon) m)
      (hrun : m.exec w.daemon = (.ok (), d)) : Plumbed P { w with daemon := d } ns := by
    have hd := hm w.daemon (.refl w.daemon)
    rw [hrun] at hd
    exact h.grown hP hd w.batch w.reading
  cases a with
  | accept | fetch | frame => cases hapart
  | spawn turns => exact hkept (AllGrown.spawnTabLeaf turns) hexec
  | reap m id => exact hkept (AllGrown.onKernel _) hexec
  | resync id => exact hkept (AllGrown.resyncLeaf id) hexec
  | drain id => exact hkept (Op.Keeps.bind (AllGrown.drainOnce id) fun _ => Op.Keeps.pure _) hexec
  | flush => exact h.flush hP hexec count w'

theorem fetch (hP : Carried N R P) (h : Plumbed P w ns) {slot : Nat} {l : Line} {c : Client}
    {batch : List Frame} {d : Daemon} (hl : w.lines[slot]? = some l)
    (hc : w.daemon.clients[slot]? = some c) (hfetch : (fetchFrames slot).exec w.daemon = (.ok batch, d))
    (hbrings : brings (c.stream.reads.headD .wouldBlock) socketBuf
      (l.host.stream.sent.drop l.told) = true) :
    Plumbed P ⟨d, if w.lost d then w.lines.eraseIdx slot
      else w.lines.set slot { l with
        told := l.told + sizeOf (c.stream.reads.headD .wouldBlock) socketBuf }, batch, slot⟩
      (if w.lost d then ns.eraseIdx slot else ns.modify slot fun n => N.read n batch) := by
  rcases fetch_cases hc hfetch with
    ⟨rfl, rfl⟩ | ⟨hread, rfl, rfl⟩ | ⟨bytes, decoder, hread, hpush, rfl⟩
  · have hclients := clients_dropClient w.daemon slot
    rw [lost_of_clients hc hclients, if_pos rfl, if_pos rfl]
    exact h.erase hclients [] slot
  · rw [kept_of_length List.length_set, if_neg Bool.false_ne_true, if_neg Bool.false_ne_true, hread]
    exact h.move hl hc rfl (fun n hends => hP.unread c.stream.reads.tail hends) [] slot
  · rw [kept_of_length List.length_set, if_neg Bool.false_ne_true, if_neg Bool.false_ne_true, hread]
    rw [hread] at hbrings
    refine h.move hl hc rfl (fun n hends => ?_) batch slot
    exact hP.fetch c.stream.reads.tail hends (List.isPrefixOf_iff_prefix.mp hbrings) hpush

theorem dispatch (hP : Carried N R P) (h : Plumbed P w ns) {m : Moment} {f : Frame}
    (batch : List Frame) {d : Daemon} (hdispatch : (dispatchFrame m w.reading f).exec w.daemon = (.ok (), d)) :
    Plumbed P ⟨d, if w.lost d then w.lines.eraseIdx w.reading else w.lines, batch, w.reading⟩
      (if w.lost d then ns.eraseIdx w.reading else ns.modify w.reading N.come) := by
  rcases dispatch_cases hdispatch with hgrown | ⟨-, -, ⟨c, hc⟩, rfl⟩
  · rw [kept_of_length hgrown.length_eq.symm, if_neg Bool.false_ne_true, if_neg Bool.false_ne_true]
    exact (h.grown hP hgrown batch w.reading).renote hP.come w.reading
  · have hclients := clients_dropClient w.daemon w.reading
    rw [lost_of_clients hc hclients, if_pos rfl, if_pos rfl]
    exact h.erase hclients batch w.reading

-- ---------------------------------------------------------------------------
-- Every step
-- ---------------------------------------------------------------------------

theorem step (hP : Carried N R P) (h : Plumbed P w ns) {e : Event} {w' : World} (hmeets : Meets R w e)
    (htakes : w.Takes e w') (count : Nat) : Plumbed P w' (N.after count w w' ns e) := by
  cases htakes.comes with
  | connect _ _ hup hhost => exact h.connect hP hup hhost count
  | call hl hcall => exact h.setLine hl fun _ c _ hends => hP.call hends hcall
  | pump hl => exact h.setLine hl fun _ c _ hends => hP.start hends
  | read hl hc _ hinbox hbrings =>
    refine h.setLine hl fun _ c' hc' hends => ?_
    obtain rfl := Option.some.inj (hc.symm.trans hc')
    exact hP.read hends hinbox _ hbrings
  | receive hl hc hfed =>
    refine h.setLine hl fun _ c' hc' hends => ?_
    obtain rfl := Option.some.inj (hc.symm.trans hc')
    exact hP.receive hends (hmeets _ hl) hfed
  | fetch _ hl hc hbrings hfetch => exact h.fetch hP hl hc hfetch hbrings
  | dispatch _ hdispatch => exact h.dispatch hP _ hdispatch
  | act _ hapart hexec => exact h.act hP hapart hexec count _

/-- What no step undoes of one connection, every run keeps of all. -/
theorem run (hP : Carried N R P) {d₀ : Daemon} (hnone : d₀.clients = [])
    (hrun : Runs Takes (Meets R) (.new d₀) w) : ∃ ns, Plumbed P w ns :=
  Runs.invariant (I := fun w => ∃ ns, Plumbed P w ns)
    (fun _ _ _ ⟨_, h⟩ hmeets htakes => ⟨_, h.step hP hmeets htakes 0⟩) hrun ⟨[], .new hnone⟩

end Plumbed

def Notes.frames : Notes (List Frame) where
  fresh _ := []
  read came frames := came ++ frames
  come came := came

/-- What is on its way is whole frames. -/
theorem carried_said : Carried .frames (fun _ => True) Said where
  connect _ hup hhost := .connect hup hhost
  call h hcall := h.call hcall
  start h := h.start
  read h hinbox fed hbrings := h.read hinbox fed hbrings
  receive h _ _ := h.receive _ _
  grown h hc := h.grown hc
  unread {came l c} reads h := by
    change Said (came ++ []) _ _
    rw [List.append_nil]
    exact h.unread reads
  fetch reads h hpiece hpush := h.fetch reads hpiece hpush
  come := id

namespace World

/-- In every world, what the host has decoded and not come to, and what is on its way to it, are
whole frames, and the frames of the log that it has not come to; and the daemon will read whole
frames. A pump that fails has come to all that it had decoded. -/
theorem frames_in_order {turns : List Turn} {size : Winsize} {isWorker : Bool} {d₀ : Daemon} {w : World}
    (hbind : Daemon.bind (.spawn size turns) size isWorker = .ok d₀) (hrun : AllRuns Takes (.new d₀) w)
    {slot : Nat} {l : Line} {c : Client} (hl : w.lines[slot]? = some l)
    (hc : w.daemon.clients[slot]? = some c) :
    l.passed ≤ c.log.length ∧
      (∃ frames, Decoder.new.push (l.host.decoder.buf ++ (c.stream.sent.drop l.heard ++ c.outbox)) =
          .ok (frames, .new) ∧ l.inbox ++ frames = arriving (c.log.drop l.passed)) ∧
      ∃ frames, Decoder.new.push (c.decoder.buf ++ (l.host.stream.sent.drop l.told ++ l.host.outbox)) =
        .ok (frames, .new) := by
  have hwhole {buf sent outbox : List UInt8} {done : Nat} {fs : List Frame}
      (h : Decoder.framing.Pipe buf sent done outbox fs) :
      Decoder.new.push (buf ++ (sent.drop done ++ outbox)) = .ok (fs, .new) := by
    have hpush : Decoder.framing.push Decoder.new.buf (buf ++ (sent.drop done ++ outbox)) = (.ok fs, []) :=
      h.push_eq Decoder.front_nil
    rw [Decoder.push_eq, Decoder.pushKeeping, hpush]
    rfl
  have hmeets : Runs Takes (Meets fun _ => True) (.new d₀) w :=
    hrun.mono fun w e _ => by cases e <;> simp [Meets]
  obtain ⟨ns, hplumbed⟩ := Plumbed.run carried_said (bind_ok hbind).1 hmeets
  obtain ⟨n, -, fs, ⟨hup, hle, came, rest, hlog, hcame, hdown⟩, -⟩ := hplumbed.exists_note hl hc
  refine ⟨hle, ⟨_, hwhole hdown, ?_⟩, _, hwhole hup⟩
  rw [hlog, ← hcame, arriving, arriving, arriving, List.map_append]

/-- A host that has read one frame of two and the half of the other, and typed a key. -/
theorem frames_in_order_half :
    let turns : List Turn := [⟨[97, 98, 99], none, none, some 3⟩, ⟨[100], none, none, none⟩]
    ∃ d₀ w, Daemon.bind (.spawn ⟨3, 1, 0, 0⟩ turns) ⟨3, 1, 0, 0⟩ false = .ok d₀ ∧
      AllRuns Takes (.new d₀) w ∧ ∃ l ∈ w.lines[0]?, ∃ c ∈ w.daemon.clients[0]?,
        l.inbox = [.data [97, 98, 99]] ∧ l.host.decoder.buf ≠ [] ∧
        c.log.map Queued.frame = [.data [97, 98, 99], .data [100]] ∧
        Decoder.new.push (l.host.decoder.buf ++ (c.stream.sent.drop l.heard ++ c.outbox)) =
          .ok ([.data [100]], .new) ∧
        ∃ frames, Decoder.new.push (c.decoder.buf ++ (l.host.stream.sent.drop l.told ++ l.host.outbox)) =
          .ok (frames, .new) := by
  intro turns
  obtain ⟨d₀, w, hbind, hrun, hfound⟩ := exists_followed (fun _ _ => True) turns ⟨3, 1, 0, 0⟩
    [.connect
        ⟨[.data ((Frame.attachWriter 1 none).wire ++ (Frame.credit Host.creditWindow).wire)],
          [.accept 1000, .accept 1000], []⟩
        ⟨[.data ((Frame.data [97, 98, 99]).wire ++ (Frame.data [100]).wire.take 4)],
          [.accept 100, .accept 100, .accept 100], []⟩ ⟨3, 1, none⟩ none,
      .fetch 0, .dispatch ⟨0, 3600⟩, .dispatch ⟨0, 3600⟩, .act (.drain ⟨1⟩), .act .flush,
      .act (.drain ⟨1⟩), .act .flush, .call 0 (.sendInput [104]), .pump 0, .read 0]
    (p := fun w => w.lines[0]?.any fun l => w.daemon.clients[0]?.any fun c =>
      l.inbox = [.data [97, 98, 99]] ∧ l.host.decoder.buf ≠ [] ∧ l.passed = 0 ∧
        c.log.map Queued.frame = [.data [97, 98, 99], .data [100]])
    (by decide +kernel)
  simp only [Option.any_eq_true, decide_eq_true_eq] at hfound
  obtain ⟨l, hl, c, hc, hinbox, hbuf, hpassed, hlog⟩ := hfound
  obtain ⟨-, ⟨frames, hdown, hframes⟩, hup⟩ := frames_in_order hbind hrun hl hc
  have harriving : arriving c.log = (c.log.map Queued.frame).map Frame.received := by
    rw [List.map_map]
    rfl
  rw [hpassed, List.drop_zero, harriving, hlog, hinbox] at hframes
  obtain ⟨-, rfl⟩ := List.cons.inj hframes
  exact ⟨d₀, w, hbind, hrun, l, hl, c, hc, hinbox, hbuf, hlog, hdown, hup⟩

end World

end Rill.Link
