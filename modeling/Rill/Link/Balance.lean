import Rill.Link.Ends

/-!
# The window of one connection

What a connection's two ends and the session's account come to, and what each step of the
host keeps of it.
-/

namespace Rill.Link

open Lib Attach Kernel Daemon World

abbrev windowSize : Nat := Host.creditWindow.toNat

-- ---------------------------------------------------------------------------
-- Grants and meals
-- ---------------------------------------------------------------------------

@[simp] theorem grants_append (fs gs : List Frame) : grants (fs ++ gs) = grants fs + grants gs := by
  rw [grants, List.map_append, List.sum_append]
  rfl

theorem grants_cons (f : Frame) (fs : List Frame) : grants (f :: fs) = grants [f] + grants fs :=
  grants_append [f] fs

theorem grants_inert {fs : List Frame} (h : ∀ f ∈ fs, Host.inert f = true) : grants fs = 0 := by
  induction fs with
  | nil => rfl
  | cons f fs ih =>
    obtain ⟨hf, hfs⟩ := List.forall_mem_cons.mp h
    rw [grants_cons, ih hfs]
    cases f with
    | attach | credit => cases hf
    | data | resize | exit | refused | checkpoint | delta | resyncRequest => rfl

theorem isAttach_inert {f : Frame} (h : Host.inert f = true) : f.isAttach = false := by
  cases f with
  | attach => cases h
  | data | credit | resize | exit | refused | checkpoint | delta | resyncRequest => rfl

@[simp] theorem meal_append (qs qs' : List Queued) : meal (qs ++ qs') = meal qs ++ meal qs' :=
  List.flatMap_append

/-- It brings nothing to be fed, and nothing that was charged. -/
def Quiet (q : Queued) : Prop := liveBytes q = [] ∧ Host.dataIn q.frame = []

theorem live_quiet {qs : List Queued} (h : ∀ q ∈ qs, Quiet q) : live qs = [] :=
  List.flatMap_eq_nil_iff.mpr fun q hq => (h q hq).1

theorem meal_quiet {qs : List Queued} (h : ∀ q ∈ qs, Quiet q) : meal qs = [] :=
  List.flatMap_eq_nil_iff.mpr fun q hq => (h q hq).2

-- ---------------------------------------------------------------------------
-- The invariant
-- ---------------------------------------------------------------------------

/-- What the host has yet to be heard with: its claim and the window first, and no claim once
it is attached. -/
def Greets : Option SessionId → List Frame → Prop
  | none, frames => ∃ rest, (∀ f ∈ rest, Host.inert f = true) ∧
      (frames = .credit Host.creditWindow :: rest ∨ ∃ generation sessionId,
        frames = .attach generation sessionId protocolVersion false ::
          .credit Host.creditWindow :: rest)
  | some _, frames => ∀ f ∈ frames, f.isAttach = false

theorem Greets.append {leaf : Option SessionId} {fs gs : List Frame} (h : Greets leaf fs)
    (hgs : ∀ f ∈ gs, Host.inert f = true) : Greets leaf (fs ++ gs) := by
  cases leaf with
  | none =>
    obtain ⟨rest, hrest, hfs⟩ := h
    refine ⟨rest ++ gs, fun f hf => (List.mem_append.mp hf).elim (hrest f) (hgs f), ?_⟩
    rcases hfs with rfl | ⟨generation, sessionId, rfl⟩
    · exact .inl rfl
    · exact .inr ⟨generation, sessionId, rfl⟩
  | some id =>
    intro f hf
    rcases List.mem_append.mp hf with hold | hnew
    · exact h f hold
    · exact isAttach_inert (hgs f hnew)

/-- `P` are the sessions' accounts, and `frames` are those of the host that the daemon has not
come to. -/
structure Balanced (P : SessionId → Purse) (l : Line) (c : Client) (frames : List Frame) : Prop where
  observe : c.observe = false
  protocol : c.protocol ≠ protocol2
  fed : ∀ n, l.fed = some n → n = (meal l.feeding).length
  still : l.fed = none → l.inbox = [] ∧ l.feeding = []
  greets : Greets c.leaf frames
  quiet : c.leaf = none → ∀ q ∈ c.log ++ (l.owed ++ l.feeding), Quiet q
  window : ∀ id, c.leaf = some id →
    (P id).credit + (P id).live.length + (live (c.log.drop l.passed)).length +
      (live (l.owed ++ l.feeding)).length + grants frames = windowSize

/-- The ends of a connection agree, where the daemon has read `ahead` and not come to it. -/
def Holds (P : SessionId → Purse) (ahead : List Frame) (l : Line) (c : Client) : Prop :=
  ∃ fs, Wired l c fs ∧ Balanced P l c (ahead ++ fs)

variable {P : SessionId → Purse} {ahead : List Frame} {l : Line} {c : Client}

-- ---------------------------------------------------------------------------
-- The host's steps
-- ---------------------------------------------------------------------------

/-- The host sends nothing but input and replies. -/
theorem Holds.mutter {l' : Line} (h : Holds P ahead l c) (hmutters : l.host.Mutters l'.host)
    (htold : l'.told = l.told) (hheard : l'.heard = l.heard) (hpassed : l'.passed = l.passed)
    (hinbox : l'.inbox = l.inbox) (hfeeding : l'.feeding = l.feeding) (howed : l'.owed = l.owed)
    (hfed : ∀ n, l'.fed = some n → n = (meal l.feeding).length)
    (hstill : l'.fed = none → l.inbox = [] ∧ l.feeding = []) : Holds P ahead l' c := by
  obtain ⟨fs, hwired, hbalanced⟩ := h
  obtain ⟨gs, hsends, hinert⟩ := hmutters
  refine ⟨fs ++ gs, ?_, ?_⟩
  · have hspoken := hwired.speak hsends htold hheard hpassed hinbox
    rwa [map_received_inert hinert] at hspoken
  · rw [← List.append_assoc]
    refine ⟨hbalanced.observe, hbalanced.protocol, hfeeding ▸ hfed, ?_, hbalanced.greets.append hinert,
      ?_, fun id hleaf => ?_⟩
    · rwa [hinbox, hfeeding]
    · rw [howed, hfeeding]
      exact hbalanced.quiet
    · rw [grants_append, grants_inert hinert, Nat.add_zero, howed, hfeeding, hpassed]
      exact hbalanced.window id hleaf

theorem Holds.call (h : Holds P ahead l c) {call : Host.Call} (hcall : call ≠ .pump) :
    Holds P ahead (l.call call) c := by
  obtain ⟨fs, hwired, hbalanced⟩ := h
  exact Holds.mutter ⟨fs, hwired, hbalanced⟩ (.call l.host hcall) rfl rfl rfl rfl rfl rfl
    hbalanced.fed hbalanced.still

theorem Holds.start (h : Holds P ahead l c) (hfed : l.fed = none) : Holds P ahead l.start c := by
  obtain ⟨fs, hwired, hbalanced⟩ := h
  obtain ⟨hinbox, hfeeding⟩ := hbalanced.still hfed
  have hflush := Host.Client.Mutters.of_sends (.flushOutbox l.host)
  unfold Line.start
  rcases hrun : Host.Client.flushOutbox.exec l.host with ⟨e | _, host⟩
  · rw [hrun] at hflush
    exact Holds.mutter ⟨fs, hwired, hbalanced⟩ hflush rfl rfl rfl rfl rfl rfl
      hbalanced.fed hbalanced.still
  · rw [hrun] at hflush
    refine Holds.mutter ⟨fs, hwired, hbalanced⟩ hflush rfl rfl rfl rfl rfl rfl ?_ nofun
    rintro n ⟨⟩
    rw [hfeeding]
    rfl

theorem grants_replenish {fed : Nat} (hsmall : fed < 4294967295) :
    grants ((if fed > 0 then [Frame.credit (UInt32.ofNat (min fed 4294967295))] else []).map
      Frame.received) = fed := by
  split
  case isTrue =>
    change (UInt32.ofNat (min fed 4294967295)).toNat + 0 = _
    rw [Nat.min_eq_left (Nat.le_of_lt hsmall), UInt32.toNat_ofNat_of_lt' (Nat.lt_succ_of_lt hsmall)]
    rfl
  case isFalse hzero => exact (Nat.eq_zero_of_not_pos hzero).symm

/-- Where no repaint was fed, a pump grants what it took out of the window. -/
theorem Holds.finish (h : Holds P ahead l c) {fed : Nat} (hfed : l.fed = some fed)
    (hinbox : l.inbox = []) (hpays : (meal l.feeding).length = (live l.feeding).length) :
    Holds P ahead (l.finish fed) c := by
  obtain ⟨fs, hwired, hbalanced⟩ := h
  have hmeal := hbalanced.fed fed hfed
  have hsends := Host.Client.Sends.replenish l.host fed
  have hspoken : Wired (l.finish fed) c (fs ++ _) := hwired.speak hsends rfl rfl rfl rfl
  refine ⟨_, hspoken, hbalanced.observe, hbalanced.protocol, nofun, fun _ => ⟨hinbox, rfl⟩, ?_, ?_, ?_⟩
  · -- a host that is not attached has fed nothing
    cases hleaf : c.leaf with
    | none =>
      have hnone := meal_quiet fun q hq =>
        hbalanced.quiet hleaf q (List.mem_append_right _ (List.mem_append_right l.owed hq))
      have hzero : fed = 0 := by rw [hmeal, hnone, List.length_nil]
      rw [hzero, if_neg (Nat.lt_irrefl 0), List.map_nil, List.append_nil, ← hleaf]
      exact hbalanced.greets
    | some id =>
      intro f hf
      have hgreets := hbalanced.greets
      rw [hleaf] at hgreets
      rw [← List.append_assoc] at hf
      rcases List.mem_append.mp hf with hold | hnew
      · exact hgreets f hold
      · split at hnew
        case isTrue =>
          obtain rfl := List.mem_singleton.mp hnew
          rfl
        case isFalse => cases hnew
  · intro hleaf q hq
    refine hbalanced.quiet hleaf q ?_
    rcases List.mem_append.mp hq with hlog | howed
    · exact List.mem_append_left _ hlog
    · have howed : q ∈ l.owed ++ [] := howed
      rw [List.append_nil] at howed
      exact List.mem_append_right _ (List.mem_append_left _ howed)
  · intro id hleaf
    have hwindow := hbalanced.window id hleaf
    rw [live_append, List.length_append] at hwindow
    have hsmall : fed < 4294967295 := by
      have hsize : windowSize = 262144 := rfl
      omega
    rw [← List.append_assoc, grants_append, grants_replenish hsmall]
    change (P id).credit + (P id).live.length + (live (c.log.drop l.passed)).length +
      (live (l.owed ++ [])).length + _ = windowSize
    rw [List.append_nil]
    omega

/-- A pump that fails loses nothing that was charged, unless it was in the inbox. -/
theorem Holds.fail (h : Holds P ahead l c)
    (hpays : live ((c.log.drop l.passed).take l.inbox.length) = []) : Holds P ahead l.fail c := by
  obtain ⟨fs, hwired, hbalanced⟩ := h
  obtain ⟨hlost, hsplit⟩ := hwired.lose
  have howed : l.owed ++ l.feeding ++ [] = l.owed ++ l.feeding := List.append_nil _
  refine ⟨fs, ⟨hlost.up, hlost.passed_le, hlost.down⟩, hbalanced.observe, hbalanced.protocol, nofun,
    fun _ => ⟨rfl, rfl⟩, hbalanced.greets, ?_, fun id hleaf => ?_⟩
  · intro hleaf q hq
    refine hbalanced.quiet hleaf q ?_
    rwa [← howed]
  · have hwindow := hbalanced.window id hleaf
    rw [hsplit, live_append, hpays, List.nil_append] at hwindow
    change _ + _ + _ + (live (l.owed ++ l.feeding ++ [])).length + _ = _
    rw [howed]
    exact hwindow

theorem Holds.popRead (h : Holds P ahead l c) (reads : List Read) :
    Holds P ahead { l with host := { l.host with stream := { l.host.stream with reads } } } c := by
  obtain ⟨fs, hwired, hbalanced⟩ := h
  exact Holds.mutter ⟨fs, hwired, hbalanced⟩ (.of_sends (.of_eq rfl rfl rfl)) rfl rfl rfl rfl rfl rfl
    hbalanced.fed hbalanced.still

theorem Holds.read (h : Holds P ahead l c) {fed : Nat} (hfed : l.fed = some fed)
    (hinbox : l.inbox = [])
    (hbrings : brings (l.host.stream.reads.headD .wouldBlock) Host.bufLen
      (c.stream.sent.drop l.heard) = true)
    (hpays : l.ends = true → (meal l.feeding).length = (live l.feeding).length) :
    Holds P ahead (l.read fed) c := by
  unfold Line.read
  unfold Line.ends at hpays
  cases hreads : l.host.stream.reads with
  | nil =>
    rw [hreads] at hpays
    exact h.finish hfed hinbox (hpays rfl)
  | cons read reads =>
    rw [hreads] at hpays hbrings
    have hpop := h.popRead reads
    dsimp only [List.headD_cons] at hpays hbrings ⊢
    cases read with
    | eof => exact hpop.finish hfed hinbox (hpays rfl)
    | wouldBlock => exact hpop.finish hfed hinbox (hpays rfl)
    | failed =>
      refine hpop.fail ?_
      change live ((c.log.drop l.passed).take l.inbox.length) = []
      rw [hinbox]
      rfl
    | data bytes =>
      dsimp only at hpays ⊢
      split
      case isTrue hempty => exact hpop.finish hfed hinbox (hpays hempty)
      case isFalse =>
        obtain ⟨fs, hwired, hbalanced⟩ := hpop
        obtain ⟨inbox, decoder, hpush, hheard⟩ :=
          hwired.hear hinbox (List.isPrefixOf_iff_prefix.mp hbrings)
        rw [Host.Client.decode, Op.exec_of]
        dsimp only at hpush ⊢
        rw [hpush]
        dsimp only [Except.mapError]
        refine ⟨fs, hheard, hbalanced.observe, hbalanced.protocol, hbalanced.fed, fun hnone => ?_,
          hbalanced.greets, hbalanced.quiet, hbalanced.window⟩
        rw [hfed] at hnone
        cases hnone

/-- A frame of the log that the host comes to is one it feeds. -/
theorem Balanced.came {frames inbox : List Frame} {q : Queued} {fed : Option Nat}
    (h : Balanced P l c frames) (hdrop : c.log.drop l.passed = q :: c.log.drop (l.passed + 1))
    (hfed : ∀ n, fed = some n → n = (meal (l.feeding ++ [q])).length) (hsome : fed ≠ none) :
    Balanced P { l with fed, inbox, passed := l.passed + 1, feeding := l.feeding ++ [q] } c frames := by
  refine ⟨h.observe, h.protocol, hfed, fun hnone => absurd hnone hsome, h.greets, ?_, fun id hleaf => ?_⟩
  · intro hleaf k hk
    have hq : q ∈ c.log := List.mem_of_mem_drop (hdrop ▸ List.mem_cons_self)
    refine h.quiet hleaf k ?_
    change k ∈ c.log ++ (l.owed ++ (l.feeding ++ [q])) at hk
    simp only [List.mem_append, List.mem_singleton] at hk ⊢
    rcases hk with hk | hk | hk | rfl
    · exact .inl hk
    · exact .inr (.inl hk)
    · exact .inr (.inr hk)
    · exact .inl hq
  · have hwindow := h.window id hleaf
    have hone : live (c.log.drop l.passed) = liveBytes q ++ live (c.log.drop (l.passed + 1)) := by
      rw [hdrop]
      rfl
    have hnew : live [q] = liveBytes q := List.append_nil _
    rw [hone] at hwindow
    change _ + _ + (live (c.log.drop (l.passed + 1))).length +
      (live (l.owed ++ (l.feeding ++ [q]))).length + _ = _
    simp only [live_append, List.length_append, hnew] at hwindow ⊢
    omega

theorem Holds.receive (h : Holds P ahead l c) {fed : Nat} (hfed : l.fed = some fed)
    (hpays : ∀ frame ∈ l.inbox.head?,
      ((Host.Client.receive fed frame).exec l.host).1.isOk = false →
        live ((c.log.drop (l.passed + 1)).take (l.inbox.length - 1)) = []) :
    Holds P ahead (l.receive c.log fed) c := by
  unfold Line.receive
  cases hinbox : l.inbox with
  | nil => exact h
  | cons frame inbox =>
    obtain ⟨fs, hwired, hbalanced⟩ := h
    obtain ⟨q, rest, hdrop, hframe, hrest, hpassed⟩ := hwired.pass hinbox
    obtain ⟨hmutters, hcounts⟩ := Host.Client.Mutters.receive l.host fed frame
    rw [hinbox] at hpays
    have hpays := hpays frame rfl
    rw [hdrop]
    change Holds P ahead (match (Host.Client.receive fed frame).exec l.host with | _ => _) c
    have hmeal : ∀ n, n = fed + (Host.dataIn frame).length →
        n = (meal (l.feeding ++ [q])).length := by
      intro n hn
      have hone : meal [q] = Host.dataIn q.frame := List.append_nil _
      rw [meal_append, List.length_append, hone, ← hbalanced.fed fed hfed, hn, hframe,
        dataIn_received]
    -- the frame is fed, whatever becomes of its reply
    have hcame : ∀ host, l.host.Mutters host → ∀ fed',
        (∀ n, fed' = some n → n = (meal (l.feeding ++ [q])).length) → fed' ≠ none →
        Holds P ahead { l with
          host
          fed := fed'
          inbox
          passed := l.passed + 1
          feeding := l.feeding ++ [q] } c := by
      intro host hmutters fed' hfed' hsome
      have hdropped : c.log.drop l.passed = q :: c.log.drop (l.passed + 1) := hdrop.trans (hrest ▸ rfl)
      refine Holds.mutter (l := { l with
          fed := fed', inbox, passed := l.passed + 1, feeding := l.feeding ++ [q] })
        ⟨fs, ⟨hpassed.up, hpassed.passed_le, hpassed.down⟩, hbalanced.came hdropped hfed' hsome⟩
        hmutters rfl rfl rfl rfl rfl rfl hfed' fun hnone => absurd hnone hsome
    rcases hrun : (Host.Client.receive fed frame).exec l.host with ⟨e | n, host⟩
    · rw [hrun] at hmutters hpays
      refine (hcame host hmutters (some (meal (l.feeding ++ [q])).length) ?_ (by simp)).fail ?_
      · rintro n ⟨⟩
        rfl
      · exact hpays rfl
    · rw [hrun] at hmutters
      refine hcame host hmutters (some n) ?_ (by simp)
      rintro _ ⟨⟩
      exact hmeal n (hcounts n host hrun)

end Rill.Link
