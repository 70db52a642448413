import Rill.Daemon.Effect

/-!
# A step is a run of acts

`step_runs`: a step that succeeds is a run of acts, with nothing in between.
The drain loop is bounded by what the child can still write, and a leaf that
was alive when it was polled is alive when it is drained, since only a reap
sees a child's exit.
-/

namespace Rill.Daemon

open Lib Attach Kernel Function Relation

-- ---------------------------------------------------------------------------
-- Who sees an exit
-- ---------------------------------------------------------------------------

/-- What holds between a changed session and what it was holds of all of them. -/
theorem update_rel {S : Sessions} {P : Session → Session → Prop} (hrefl : ∀ s, P s s)
    {id : SessionId} {s t : Session} (hs : S id = some s) (hst : P s t) {j : SessionId}
    {u : Session} (hu : S j = some u) : ∃ v, update S id (some t) j = some v ∧ P u v := by
  by_cases hj : j = id
  · subst hj
    obtain rfl := Option.some.inj (hs.symm.trans hu)
    exact ⟨t, update_self .., hst⟩
  · exact ⟨u, by rw [update_of_ne hj, hu], hrefl u⟩

theorem releaseRole_childExit (observe : Bool) (s : Session) :
    (releaseRole observe s).childExit = s.childExit := by
  cases observe with
  | true => rfl
  | false => rfl

theorem leave_childExit (c : Client) (id : SessionId) (s : Session) :
    (c.leave id s).childExit = s.childExit := by
  unfold Client.leave
  split
  case isTrue => exact releaseRole_childExit _ s
  case isFalse => rfl

theorem attach_childExit (s : Session) (m : Moment) (generation : UInt64) (observe : Bool) :
    (s.attach m generation observe).childExit = s.childExit := by
  unfold Session.attach
  split
  case isTrue => rfl
  case isFalse =>
    split
    case isTrue => rfl
    case isFalse => rfl

theorem flushed_eq {d : Daemon} {id : SessionId} {s : Session} (hs : d.session id = some s) :
    flushed d id = some { s with
      outbound :=
        if id ∈ d.clients.filterMap Client.leaf then []
        else s.outbound.filter fun q => !q.frame.isData } := by
  have hs' : d.kernel.session id = some s := hs
  rw [flushed, Kernel.session_takeOutbound, hs']
  rfl

def Act.isReap : Act → Bool
  | .reap .. => true
  | _ => false

/-- No leaf disappears, and only a reap can change what is known of its child. -/
theorem Effect.childExit {d : Daemon} {a : Act} {S : Sessions} {C : List Client}
    (h : Effect d a S C) (ha : a.isReap = false) {j : SessionId} {u : Session}
    (hu : d.session j = some u) : ∃ v, S j = some v ∧ v.childExit = u.childExit := by
  let P (s t : Session) : Prop := t.childExit = s.childExit
  have hrefl : ∀ s, P s s := fun _ => rfl
  cases h with
  | idle | accept | fetch | drop | refuse => exact ⟨u, hu, rfl⟩
  | spawn turns hid =>
    have hj : j ≠ _ := fun h => by
      rw [h, hid] at hu
      cases hu
    exact ⟨u, by rw [update_of_ne hj, hu], rfl⟩
  | hangup hc => exact ⟨_, congrArg _ hu, leave_childExit _ _ _⟩
  | attach _ _ hs => exact update_rel hrefl hs (attach_childExit _ _ _ _) hu
  | own _ _ _ _ hs hsteady => exact update_rel hrefl hs hsteady.childExit hu
  | reap | exit => cases ha
  | stall hs hsteady => exact update_rel hrefl hs hsteady.childExit hu
  | fanout hs => exact update_rel (P := P) hrefl hs (by rfl) hu
  | queue hs => exact update_rel (P := P) hrefl hs (by rfl) hu
  | flush => exact ⟨_, flushed_eq hu, rfl⟩
  | flushDrop => exact ⟨_, congrArg _ (flushed_eq hu), leave_childExit _ _ _⟩
  | skipResync hs => exact update_rel (P := P) hrefl hs (by rfl) hu
  | repaint hs => exact update_rel (P := P) hrefl hs (by rfl) hu

theorem childAlive_iff {d : Daemon} {id : SessionId} :
    childAlive d id ↔ ∃ s, d.session id = some s ∧ s.childExit = none := by
  simp [childAlive, Option.any_eq_true, Session.childAlive]

theorem Act.Takes.childAlive {d d' : Daemon} {a : Act} (h : a.Takes d d') (ha : a.isReap = false)
    {id : SessionId} (halive : d.childAlive id) : d'.childAlive id := by
  rw [childAlive_iff] at halive ⊢
  obtain ⟨s, hs, hexit⟩ := halive
  obtain ⟨t, ht, htexit⟩ := h.effect.1.childExit ha hs
  exact ⟨t, ht, htexit.trans hexit⟩

-- ---------------------------------------------------------------------------
-- The programs as runs
-- ---------------------------------------------------------------------------

def Alive (ids : List SessionId) (d : Daemon) : Prop := ∀ id ∈ ids, childAlive d id

abbrev Acts (ids : List SessionId) (m : DaemonM α) : Prop :=
  Op.Traces (AllRuns Act.Takes) (Alive ids) m

theorem AllRuns.refl (d : Daemon) : AllRuns Act.Takes d d := ReflTransGen.refl

theorem AllRuns.trans (d e f : Daemon) (h : AllRuns Act.Takes d e) (h' : AllRuns Act.Takes e f) :
    AllRuns Act.Takes d f := ReflTransGen.trans h h'

theorem Act.Takes.allRuns {d d' : Daemon} {a : Act} (h : a.Takes d d') : AllRuns Act.Takes d d' :=
  .single ⟨a, trivial, h⟩

/-- A program that is an act, but for what it returns. -/
theorem Acts.of_act {ids : List SessionId} {m : DaemonM α} (a : Act) (ha : a.isReap = false)
    (h : ∀ d r d', Alive ids d → m.exec d = (.ok r, d') → a.Takes d d') : Acts ids m := by
  intro d r d' halive hrun
  have htakes := h d r d' halive hrun
  exact ⟨htakes.allRuns, fun id hid => htakes.childAlive ha (halive id hid)⟩

theorem acts_dispatchFrames (ids : List SessionId) (idx : Nat) (batch : List (Moment × Frame)) :
    Acts ids (dispatchFrames idx batch) :=
  Op.Traces.forM AllRuns.refl AllRuns.trans fun b _ =>
    Acts.of_act (.frame b.1 idx b.2) rfl fun _ _ _ _ h => ⟨trivial, h⟩

theorem acts_fetchFrames (ids : List SessionId) (idx : Nat) : Acts ids (fetchFrames idx) := by
  refine Acts.of_act (.fetch idx) rfl fun d frames d' _ h => ⟨trivial, ?_⟩
  exact Op.exec_bind_eq_ok.mpr ⟨frames, d', h, rfl⟩

theorem acts_readClient (ids : List SessionId) (clock : Nat → Moment) (idx : Nat) :
    Acts ids (readClient clock idx) :=
  Op.Traces.bind AllRuns.trans (acts_fetchFrames ids idx) fun _ => acts_dispatchFrames ids idx _

theorem acts_drainOnce {ids : List SessionId} {id : SessionId} (hid : id ∈ ids) :
    Acts ids (drainOnce id) := by
  refine Acts.of_act (.drain id) rfl fun d more d' halive h => ⟨halive id hid, ?_⟩
  exact Op.exec_bind_eq_ok.mpr ⟨more, d', h, rfl⟩

theorem acts_drainLoop {ids : List SessionId} {id : SessionId} (hid : id ∈ ids) (turns : Nat) :
    Acts ids (drainLoop turns id) := by
  induction turns with
  | zero => exact Op.Traces.pure AllRuns.refl _
  | succ turns ih =>
    refine Op.Traces.bind AllRuns.trans (acts_drainOnce hid) fun more => ?_
    cases more with
    | false => exact Op.Traces.pure AllRuns.refl _
    | true => exact ih

theorem acts_drainLeaf {ids : List SessionId} {id : SessionId} (hid : id ∈ ids) :
    Acts ids (drainLeaf id) := by
  intro d r d' halive h
  rw [drainLeaf, Op.exec_get_bind] at h
  split at h
  case h_1 => exact Op.Traces.pure AllRuns.refl _ d r d' halive h
  case h_2 s _ => exact acts_drainLoop hid _ d r d' halive h

theorem acts_acceptOne (ids : List SessionId) (accept : Except Unit (Option Stream)) :
    Acts ids (acceptOne accept) := by
  cases accept with
  | error => exact Op.Traces.throw _
  | ok stream =>
    cases stream with
    | none => exact Op.Traces.pure AllRuns.refl _
    | some stream => exact Acts.of_act (.accept stream) rfl fun _ _ _ _ h => ⟨trivial, h⟩

theorem acts_spawnTabLeaf (ids : List SessionId) (spawned : Except Kernel.Error (List Turn)) :
    Acts ids (spawnTabLeaf spawned) := by
  cases spawned with
  | error e =>
    intro d r d' _ h
    cases h
  | ok turns => exact Acts.of_act (.spawn turns) rfl fun _ _ _ _ h => ⟨trivial, h⟩

theorem pollIo_runs {p : Poll} {d d' : Daemon} (h : (pollIo p).exec d = (.ok (), d')) :
    AllRuns Act.Takes d d' := by
  rw [pollIo, Op.exec_get_bind] at h
  dsimp only at h
  generalize hids : ((p.order d.kernel.ids).filter fun id => childAlive d id && p.readable id) = ids
    at h
  have halive : Alive ids d := by
    intro id hid
    rw [← hids, List.mem_filter, Bool.and_eq_true] at hid
    exact hid.2.1
  refine (show Acts ids _ from ?_) d () d' halive h |>.1
  refine Op.Traces.guard ?_
  refine Op.Traces.bind AllRuns.trans (acts_acceptOne ids p.accept) fun _ => ?_
  refine Op.Traces.guard ?_
  refine Op.Traces.bind AllRuns.trans ?_ fun _ => ?_
  · exact Op.Traces.forM AllRuns.refl AllRuns.trans fun tab _ => acts_spawnTabLeaf ids tab
  · refine Op.Traces.bind AllRuns.trans ?_ fun _ => ?_
    · refine Op.Traces.forM AllRuns.refl AllRuns.trans fun idx _ => ?_
      split
      case isTrue => exact acts_readClient ids _ idx
      case isFalse => exact Op.Traces.pure AllRuns.refl _
    · exact Op.Traces.forM AllRuns.refl AllRuns.trans fun id hid => acts_drainLeaf hid

theorem reapAll_runs {p : Poll} {d d' : Daemon} (h : (reapAll p).exec d = (.ok (), d')) :
    AllRuns Act.Takes d d' := by
  rw [reapAll, Op.exec_get_bind] at h
  refine (Op.Traces.forM (I := fun _ => True) AllRuns.refl AllRuns.trans ?_) d () d' trivial h |>.1
  intro id _ e r e' _ hreap
  exact ⟨Act.Takes.allRuns (a := .reap (p.reapAt id) id) ⟨trivial, hreap⟩, trivial⟩

theorem maybeResync_runs {p : Poll} {d d' : Daemon} (h : (maybeResync p).exec d = (.ok (), d')) :
    AllRuns Act.Takes d d' := by
  rw [maybeResync, Op.exec_get_bind] at h
  refine (Op.Traces.forM (I := fun _ => True) AllRuns.refl AllRuns.trans ?_) d () d' trivial h |>.1
  intro id _ e r e' _ hresync
  exact ⟨Act.Takes.allRuns (a := .resync id) ⟨trivial, hresync⟩, trivial⟩

/-- A step that succeeds is a run of acts. -/
theorem step_runs {p : Poll} {d d' : Daemon} (h : (step p).exec d = (.ok (), d')) :
    AllRuns Act.Takes d d' := by
  obtain ⟨_, d₁, hreap, h⟩ := Op.exec_bind_eq_ok.mp h
  obtain ⟨_, d₂, hpoll, h⟩ := Op.exec_bind_eq_ok.mp h
  obtain ⟨_, d₃, hflush, hresync⟩ := Op.exec_bind_eq_ok.mp h
  have hflush' : AllRuns Act.Takes d₂ d₃ := Act.Takes.allRuns (a := .flush) ⟨trivial, hflush⟩
  exact (reapAll_runs hreap).trans ((pollIo_runs hpoll).trans
    (hflush'.trans (maybeResync_runs hresync)))

theorem run_runs {polls : List Poll} {d d' : Daemon} (h : (run polls).exec d = (.ok (), d')) :
    AllRuns Act.Takes d d' := by
  refine (Op.Traces.forM (I := fun _ => True) AllRuns.refl AllRuns.trans ?_) d () d' trivial h |>.1
  exact fun p _ e r e' _ hstep => ⟨step_runs hstep, trivial⟩

theorem after_reachable {turns : List Turn} {size : Winsize} {isWorker : Bool} {polls : List Poll}
    {d : Daemon} (h : after turns size isWorker polls = .ok d) : Reachable d := by
  rw [after] at h
  cases hbind : Daemon.bind (.spawn size turns) size isWorker with
  | error e =>
    rw [hbind] at h
    cases h
  | ok d₀ =>
    rw [hbind] at h
    dsimp only [Bind.bind, Except.bind] at h
    rcases hrun : (run polls).exec d₀ with ⟨e | _, d'⟩
    · rw [hrun] at h
      cases h
    · rw [hrun] at h
      obtain rfl : d' = d := Except.ok.inj h
      exact .mk hbind (run_runs hrun)

/-- The daemon that `acts` lead to, while each is taken and meets `G`. -/
def Act.follow (G : Daemon → Act → Prop) [∀ d a, Decidable (G d a)] :
    Daemon → List Act → Option Daemon
  | d, [] => some d
  | d, a :: acts =>
    if G d a ∧ a.enabled d then
      match a.run.exec d with
      | (.ok (), d') => Act.follow G d' acts
      | (.error _, _) => none
    else none

theorem Act.follow_runs {G : Daemon → Act → Prop} [∀ d a, Decidable (G d a)] {d d' : Daemon}
    {acts : List Act} (h : Act.follow G d acts = some d') : Runs Act.Takes G d d' := by
  induction acts generalizing d with
  | nil =>
    obtain rfl := Option.some.inj h
    exact .refl
  | cons a acts ih =>
    rw [Act.follow] at h
    split at h
    case isFalse => cases h
    case isTrue hmeets =>
      rcases hrun : a.run.exec d with ⟨e | _, d₁⟩
      · rw [hrun] at h
        cases h
      · rw [hrun] at h
        exact .head ⟨a, hmeets.1, hmeets.2, hrun⟩ (ih h)

theorem Act.exists_takes {d : Daemon} {a : Act} (henabled : a.enabled d)
    (hok : (a.run.exec d).1.isOk = true) : ∃ d', a.Takes d d' ∧ (a.run.exec d).2 = d' := by
  rcases hrun : a.run.exec d with ⟨e | _, d'⟩
  · rw [hrun] at hok
    cases hok
  · exact ⟨d', ⟨henabled, hrun⟩, rfl⟩

/-- A daemon that is found to have `Q` by running it. -/
theorem exists_after {r : Except Error Daemon} {p : Daemon → Bool} {Q : Daemon → Prop}
    (h : r.toOption.any p = true) (hQ : ∀ d, p d = true → Q d) : ∃ d, r = .ok d ∧ Q d := by
  cases r with
  | error e => cases h
  | ok d => exact ⟨d, rfl, hQ d h⟩

/-- The daemon starts with one leaf and nobody connected. -/
theorem bind_ok {pty : Pty} {size : Winsize} {isWorker : Bool} {d : Daemon}
    (h : Daemon.bind pty size isWorker = .ok d) :
    d.clients = [] ∧ d.isWorker = isWorker ∧
      d.session = update (fun _ => none) d.defaultId (some (.spawn pty false size)) := by
  rw [Daemon.bind] at h
  dsimp only at h
  split at h
  case h_2 => cases h
  case h_1 chip hchip =>
    obtain rfl := Except.ok.inj h
    exact ⟨rfl, rfl, Kernel.session_spawnLeaf_new _⟩

theorem exists_follow {G : Daemon → Act → Prop} [∀ d a, Decidable (G d a)] (turns : List Turn)
    (size : Winsize) (isWorker : Bool) (acts : List Act) {p : Daemon → Bool}
    (h : ((Daemon.bind (.spawn size turns) size isWorker).toOption.bind fun d =>
      Act.follow G d acts).any p = true) :
    ∃ d₀ d, Daemon.bind (.spawn size turns) size isWorker = .ok d₀ ∧ Runs Act.Takes G d₀ d ∧
      p d = true := by
  cases hbind : Daemon.bind (.spawn size turns) size isWorker with
  | error e =>
    rw [hbind] at h
    cases h
  | ok d₀ =>
    rw [hbind] at h
    obtain ⟨d, hfollow, hp⟩ := (Option.any_eq_true _ _).mp h
    exact ⟨d₀, d, rfl, Act.follow_runs hfollow, hp⟩

theorem exists_bind (turns : List Turn) (isWorker : Bool) :
    ∃ d₀, Daemon.bind (.spawn ⟨1, 1, 0, 0⟩ turns) ⟨1, 1, 0, 0⟩ isWorker = .ok d₀ := ⟨_, rfl⟩

end Rill.Daemon
