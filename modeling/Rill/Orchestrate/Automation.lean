import Rill.Lib.Runs
import Rill.Orchestrate.Trust

/-!
# Automation

Typed actions are checked on their way into a bounded queue, which is drained
as a whole.
-/

namespace Rill.Orchestrate

open Lib

inductive SplitDirection
  | left
  | right
  | up
  | down
  deriving DecidableEq, Repr

inductive RillAction
  | createTab (tabId title command : Option String)
  | closeTab (tabId : String)
  | splitPane (paneId : String) (direction : SplitDirection) (command : Option String)
  | focusPane (paneId : String)
  | setTabTitle (tabId title : String)
  | setTabBadge (tabId badge : String)
  | showNotification (title body : String)
  | changeRuntimeAppearanceOverride (theme : String) (backgroundOpacity : Option Float)
  | runCommand (command : String) (cwd : Option String)
  | openWorkspace (path : String)

inductive ActionValidationError
  | emptyValue (field : String)
  | missingIdentifier (field : String)
  | invalidOpacity
  deriving DecidableEq, Repr

def isBlank (s : String) : Bool := (trim s.toList).isEmpty

namespace RillAction

def identifier (field id : String) : Except ActionValidationError Unit :=
  if isBlank id then throw (.missingIdentifier field) else pure ()

def value (field s : String) : Except ActionValidationError Unit :=
  if isBlank s then throw (.emptyValue field) else pure ()

def optional (field : String) : Option String → Except ActionValidationError Unit
  | some s => value field s
  | none => pure ()

/-- A NaN is no opacity. -/
def opacity : Option Float → Except ActionValidationError Unit
  | some x => if ¬ (0.0 ≤ x ∧ x ≤ 1.0) then throw .invalidOpacity else pure ()
  | none => pure ()

def validate : RillAction → Except ActionValidationError Unit
  | createTab (some id) title command => do
    identifier "tab_id" id
    optional "title" title
    optional "command" command
  -- Without an id nothing is looked at.
  | createTab none _ _ => pure ()
  | closeTab tabId => identifier "tab_id" tabId
  | splitPane paneId _ command => do
    identifier "pane_id" paneId
    optional "command" command
  | focusPane paneId => identifier "pane_id" paneId
  | setTabTitle tabId title => do
    identifier "tab_id" tabId
    value "title" title
  | setTabBadge tabId badge => do
    identifier "tab_id" tabId
    value "badge" badge
  | showNotification title body => do
    value "title" title
    value "body" body
  | changeRuntimeAppearanceOverride theme backgroundOpacity => do
    value "theme" theme
    opacity backgroundOpacity
  | runCommand command cwd => do
    value "command" command
    optional "cwd" cwd
  | openWorkspace path => value "path" path

end RillAction

inductive ActionDispatchError
  | queueFull (limit : Nat)
  | validation (e : ActionValidationError)
  deriving DecidableEq, Repr

structure ActionDispatcher where
  queue : List RillAction
  limit : Nat

namespace ActionDispatcher

def new (limit : Nat) : ActionDispatcher where
  queue := []
  limit := max limit 1

def enqueue (action : RillAction) : Op ActionDispatcher ActionDispatchError Unit := do
  Op.mapError .validation (Op.lift action.validate)
  let d ← get
  if d.queue.length ≥ d.limit then throw (.queueFull d.limit)
  modify fun d => { d with queue := d.queue ++ [action] }

def dispatch (action : RillAction) : Op ActionDispatcher ActionDispatchError Unit := enqueue action

/-- What is popped is pushed to `out`, until nothing is left. -/
def drainLoop (out : List RillAction) : List RillAction → List RillAction
  | [] => out
  | action :: queue => drainLoop (out ++ [action]) queue

def drain (d : ActionDispatcher) : List RillAction × ActionDispatcher :=
  (drainLoop [] d.queue, { d with queue := [] })

end ActionDispatcher

-- ---------------------------------------------------------------------------
-- What is checked
-- ---------------------------------------------------------------------------

namespace RillAction

def strings : RillAction → List String
  | createTab tabId title command => tabId.toList ++ title.toList ++ command.toList
  | closeTab tabId => [tabId]
  | splitPane paneId _ command => paneId :: command.toList
  | focusPane paneId => [paneId]
  | setTabTitle tabId title => [tabId, title]
  | setTabBadge tabId badge => [tabId, badge]
  | showNotification title body => [title, body]
  | changeRuntimeAppearanceOverride theme _ => [theme]
  | runCommand command cwd => command :: cwd.toList
  | openWorkspace path => [path]

/-- None of its strings is blank. -/
def Sound (a : RillAction) : Prop := ∀ s ∈ a.strings, isBlank s = false

/-- A tab without an id that has a blank title or command. -/
def Careless : RillAction → Prop
  | createTab none title command => ∃ s ∈ title.toList ++ command.toList, isBlank s = true
  | _ => False

theorem identifier_eq_ok {field id : String} : identifier field id = .ok () ↔ isBlank id = false := by
  unfold identifier
  cases isBlank id <;> simp [throw, throwThe, MonadExceptOf.throw, pure, Except.pure]

theorem value_eq_ok {field s : String} : value field s = .ok () ↔ isBlank s = false := by
  unfold value
  cases isBlank s <;> simp [throw, throwThe, MonadExceptOf.throw, pure, Except.pure]

theorem optional_eq_ok {field : String} {s : Option String} :
    optional field s = .ok () ↔ ∀ t ∈ s.toList, isBlank t = false := by
  cases s with
  | none => simp [optional, pure, Except.pure]
  | some t => simp [optional, value_eq_ok]

theorem then_eq_ok {x y : Except ActionValidationError Unit} :
    (do x; y) = .ok () ↔ x = .ok () ∧ y = .ok () := by
  cases x <;> simp [bind, Except.bind]

theorem sound_iff {a : RillAction} (h : a.validate = .ok ()) : a.Sound ↔ ¬ a.Careless := by
  cases a with
  | createTab tabId title command =>
    cases tabId with
    | none => simp [Sound, strings, Careless]
    | some id =>
      simp only [validate, then_eq_ok, identifier_eq_ok, optional_eq_ok] at h
      simp only [Sound, strings, Careless, Option.toList_some, List.forall_mem_append,
        List.forall_mem_singleton]
      tauto
  | closeTab | focusPane =>
    simp only [validate, identifier_eq_ok] at h
    simp [Sound, strings, Careless, h]
  | openWorkspace =>
    simp only [validate, value_eq_ok] at h
    simp [Sound, strings, Careless, h]
  | setTabTitle | setTabBadge =>
    simp only [validate, then_eq_ok, identifier_eq_ok, value_eq_ok] at h
    simp [Sound, strings, Careless, h]
  | showNotification | changeRuntimeAppearanceOverride =>
    simp only [validate, then_eq_ok, value_eq_ok] at h
    simp [Sound, strings, Careless, h]
  | splitPane =>
    simp only [validate, then_eq_ok, identifier_eq_ok, optional_eq_ok] at h
    simp only [Sound, strings, Careless, List.forall_mem_cons]
    tauto
  | runCommand =>
    simp only [validate, then_eq_ok, value_eq_ok, optional_eq_ok] at h
    simp only [Sound, strings, Careless, List.forall_mem_cons]
    tauto

theorem validate_of_careless {a : RillAction} (h : a.Careless) : a.validate = .ok () := by
  cases a with
  | createTab tabId title command =>
    cases tabId with
    | none => rfl
    | some id => exact h.elim
  | _ => exact h.elim

end RillAction

-- ---------------------------------------------------------------------------
-- Runs
-- ---------------------------------------------------------------------------

namespace ActionDispatcher

inductive Call
  | enqueue (action : RillAction)
  | dispatch (action : RillAction)
  | drain

def Call.action? : Call → Option RillAction
  | enqueue action | dispatch action => some action
  | drain => none

def next (d : ActionDispatcher) : Call → ActionDispatcher
  | .enqueue action => ((enqueue action).exec d).2
  | .dispatch action => ((dispatch action).exec d).2
  | .drain => d.drain.2

def accepts (d : ActionDispatcher) : Call → List RillAction
  | .enqueue action => if ((enqueue action).exec d).1 = .ok () then [action] else []
  | .dispatch action => if ((dispatch action).exec d).1 = .ok () then [action] else []
  | .drain => []

def yields (d : ActionDispatcher) : Call → List RillAction
  | .drain => d.drain.1
  | _ => []

def after (limit : Nat) (calls : List Call) : ActionDispatcher := calls.foldl next (new limit)

def accepted (limit : Nat) (calls : List Call) : List RillAction := along next accepts (new limit) calls

def drained (limit : Nat) (calls : List Call) : List RillAction := along next yields (new limit) calls

variable {d : ActionDispatcher} {action : RillAction}

theorem drainLoop_eq (out queue : List RillAction) : drainLoop out queue = out ++ queue := by
  induction queue generalizing out with
  | nil => rw [List.append_nil]; rfl
  | cons action queue ih => rw [drainLoop, ih, List.append_assoc, List.singleton_append]

/-- An action is taken in when it passes and there is room, and refused without a trace. -/
theorem enqueue_cases (d : ActionDispatcher) (action : RillAction) :
    (action.validate = .ok () ∧ d.queue.length < d.limit ∧
      (enqueue action).exec d = (.ok (), { d with queue := d.queue ++ [action] })) ∨
    (¬ (action.validate = .ok () ∧ d.queue.length < d.limit) ∧
      ∃ e, (enqueue action).exec d = (.error e, d)) := by
  rw [enqueue, Op.exec_bind, Op.exec_mapError, Op.exec_lift]
  cases hvalid : action.validate with
  | error e => exact .inr ⟨fun h => absurd h.1 (by simp), _, rfl⟩
  | ok u =>
    dsimp only [Except.mapError]
    rw [Op.exec_get_bind]
    by_cases hfull : d.queue.length ≥ d.limit
    · rw [Op.exec_guard_pos hfull]
      exact .inr ⟨fun h => absurd h.2 (Nat.not_lt.mpr hfull), _, rfl⟩
    · rw [Op.exec_guard_neg hfull]
      exact .inl ⟨rfl, Nat.lt_of_not_le hfull, rfl⟩

theorem next_cases (d : ActionDispatcher) (c : Call) :
    (∃ action, c.action? = some action ∧ action.validate = .ok () ∧ d.queue.length < d.limit ∧
      next d c = { d with queue := d.queue ++ [action] } ∧ accepts d c = [action] ∧ yields d c = []) ∨
    (∃ action, c.action? = some action ∧ ¬ (action.validate = .ok () ∧ d.queue.length < d.limit) ∧
      next d c = d ∧ accepts d c = [] ∧ yields d c = []) ∨
    (c = .drain ∧ next d c = { d with queue := [] } ∧ accepts d c = [] ∧ yields d c = d.queue) := by
  cases c with
  | enqueue action | dispatch action =>
    obtain ⟨hvalid, hroom, hrun⟩ | ⟨hnot, e, hrun⟩ := enqueue_cases d action
    · exact .inl ⟨action, rfl, hvalid, hroom, by simp [next, dispatch, hrun],
        by simp [accepts, dispatch, hrun], rfl⟩
    · exact .inr (.inl ⟨action, rfl, hnot, by simp [next, dispatch, hrun],
        by simp [accepts, dispatch, hrun], rfl⟩)
  | drain => exact .inr (.inr ⟨rfl, rfl, rfl, drainLoop_eq [] d.queue⟩)

/-- A call does not bring a careless action in while there is room. -/
def Careful (d : ActionDispatcher) (c : Call) : Prop :=
  ∀ action, c.action? = some action → action.Careless → d.limit ≤ d.queue.length

structure Kept (limit : Nat) (calls : List Call) : Prop where
  bounded : (after limit calls).queue.length ≤ max limit 1
  drains : drained limit calls ++ (after limit calls).queue = accepted limit calls
  refused : ∀ action e, ((enqueue action).exec (after limit calls)).1 = .error e →
    ((enqueue action).exec (after limit calls)).2 = after limit calls
  sound : ∀ action ∈ drained limit calls ++ (after limit calls).queue, action.Sound

theorem limit_next (d : ActionDispatcher) (c : Call) : (next d c).limit = d.limit := by
  obtain ⟨_, -, -, -, hnext, -⟩ | ⟨_, -, -, hnext, -⟩ | ⟨-, hnext, -⟩ := next_cases d c
  all_goals rw [hnext]

theorem length_next {d : ActionDispatcher} (h : d.queue.length ≤ d.limit) (c : Call) :
    (next d c).queue.length ≤ (next d c).limit := by
  obtain ⟨_, -, -, hroom, hnext, -⟩ | ⟨_, -, -, hnext, -⟩ | ⟨-, hnext, -⟩ := next_cases d c
  · rw [hnext, List.length_append, List.length_singleton]
    exact hroom
  · rwa [hnext]
  · rw [hnext]
    exact Nat.zero_le _

theorem bounded_after (limit : Nat) (calls : List Call) :
    (after limit calls).queue.length ≤ max limit 1 := by
  have hall : (after limit calls).queue.length ≤ (after limit calls).limit ∧
      (after limit calls).limit = max limit 1 := by
    refine List.foldlRecOn (motive := fun (d : ActionDispatcher) => d.queue.length ≤ d.limit ∧
      d.limit = max limit 1) calls next ⟨Nat.zero_le _, rfl⟩ ?_
    rintro d ⟨hlen, hlimit⟩ c -
    exact ⟨length_next hlen c, (limit_next d c).trans hlimit⟩
  exact hall.2 ▸ hall.1

/-- What is taken out and what is left, is what was there and what was taken in. -/
theorem drained_append (d : ActionDispatcher) (calls : List Call) :
    along next yields d calls ++ (calls.foldl next d).queue = d.queue ++ along next accepts d calls := by
  induction calls generalizing d with
  | nil => simp [along]
  | cons c calls ih =>
    rw [along, along, List.foldl_cons, List.append_assoc, ih]
    obtain ⟨_, -, -, -, hnext, haccepts, hyields⟩ | ⟨_, -, -, hnext, haccepts, hyields⟩ |
      ⟨-, hnext, haccepts, hyields⟩ := next_cases d c
    all_goals simp [hnext, haccepts, hyields]

theorem refused_unchanged {d : ActionDispatcher} {action : RillAction} {e : ActionDispatchError}
    (h : ((enqueue action).exec d).1 = .error e) : ((enqueue action).exec d).2 = d := by
  obtain ⟨-, -, hrun⟩ | ⟨-, e', hrun⟩ := enqueue_cases d action
  · rw [hrun] at h
    cases h
  · rw [hrun]

/-- What is taken in is sound just if it was brought in with care. -/
theorem accepts_sound_iff (d : ActionDispatcher) (c : Call) :
    (∀ action ∈ accepts d c, action.Sound) ↔ Careful d c := by
  obtain ⟨action, haction, hvalid, hroom, -, haccepts, -⟩ | ⟨action, haction, hnot, -, haccepts, -⟩ |
    ⟨rfl, -, haccepts, -⟩ := next_cases d c
  · rw [haccepts, List.forall_mem_singleton, RillAction.sound_iff hvalid]
    simp [Careful, haction, Nat.not_le.mpr hroom]
  · rw [haccepts]
    refine iff_of_true (fun _ h => absurd h List.not_mem_nil) ?_
    rintro other hother hcareless
    obtain rfl := Option.some.inj (haction.symm.trans hother)
    exact Nat.le_of_not_lt fun hroom => hnot ⟨RillAction.validate_of_careless hcareless, hroom⟩
  · exact iff_of_true (fun _ h => absurd h List.not_mem_nil) nofun

theorem accepted_sound_iff (d : ActionDispatcher) (calls : List Call) :
    (∀ action ∈ along next accepts d calls, action.Sound) ↔ AllAlong next Careful d calls := by
  induction calls generalizing d with
  | nil => exact iff_of_true (fun _ h => absurd h List.not_mem_nil) trivial
  | cons c calls ih => rw [along, List.forall_mem_append, accepts_sound_iff, ih]; rfl

/-- A run keeps what a dispatcher is for just if nothing careless is brought in on the way. -/
theorem kept_iff (limit : Nat) (calls : List Call) :
    (∀ pre, pre <+: calls → Kept limit pre) ↔ AllAlong next Careful (new limit) calls := by
  have hdrains : ∀ pre, drained limit pre ++ (after limit pre).queue = accepted limit pre :=
    fun pre => drained_append (new limit) pre
  constructor
  · intro h
    have hsound := (h calls (List.prefix_refl calls)).sound
    rw [hdrains] at hsound
    exact (accepted_sound_iff _ calls).mp hsound
  · intro h pre hpre
    refine ⟨bounded_after limit pre, hdrains pre, fun _ _ => refused_unchanged, ?_⟩
    rw [hdrains]
    exact (accepted_sound_iff _ pre).mpr (h.of_prefix hpre)

/-- A new tab with a blank title and a blank command. -/
theorem blank_tab_queued :
    ¬ ∀ limit calls, Kept limit calls := by
  intro h
  have hsound := (h 1 [.enqueue (.createTab none (some " ") (some "")), .drain]).sound
  exact absurd (hsound _ List.mem_cons_self " " List.mem_cons_self) (by decide)

end ActionDispatcher

end Rill.Orchestrate
