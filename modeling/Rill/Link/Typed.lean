import Rill.Daemon.Given
import Rill.Link.Wires

/-!
# From the hosts to the children

A world with a record of it: the frames of each connection that the daemon has come to,
and all that the children were given, each piece with the connection it came on. No step
looks at the record.
-/

namespace Rill.Link

open Lib Attach Kernel Daemon
open World hiding Takes step new

-- ---------------------------------------------------------------------------
-- The record
-- ---------------------------------------------------------------------------

/-- Of a connection: its name, the frames of it that the daemon has come to, and those that it has
read and not come to. -/
structure Note where
  name : Nat
  came : List Frame
  ahead : List Frame

def Notes.record : Notes Note where
  fresh name := ⟨name, [], []⟩
  read n frames := { n with ahead := n.ahead ++ frames }
  come n := { n with came := n.came ++ n.ahead.take 1, ahead := n.ahead.tail }

/-- What the child of a leaf was given, and on which connection it came. -/
structure Typed where
  name : Nat
  leaf : SessionId
  bytes : List UInt8

structure Record where
  world : World
  notes : List Note
  typed : List Typed
  count : Nat

/-- No frame ends its connection with another of the same read behind it. -/
def World.Whole (w : World) : Event → Prop
  | .dispatch _ =>
    ∀ f ∈ w.batch.head?, f.isAttach = false → w.daemon.leafOf w.reading = none → w.batch.tail = []
  | _ => True

instance (w : World) : (e : Event) → Decidable (w.Whole e)
  | .dispatch _ => inferInstanceAs (Decidable (∀ f ∈ w.batch.head?, f.isAttach = false →
      w.daemon.leafOf w.reading = none → w.batch.tail = []))
  | .connect .. | .call .. | .pump _ | .read _ | .receive _ | .fetch _ | .act _ => instDecidableTrue

namespace Record

def new (d : Daemon) : Record := ⟨.new d, [], [], 0⟩

def types (r : Record) : Event → List Typed
  | .dispatch m =>
    match r.world.batch, r.notes[r.world.reading]? with
    | f :: _, some n => (r.world.daemon.gives m r.world.reading f).toList.map fun g => ⟨n.name, g.1, g.2⟩
    | _, _ => []
  | _ => []

/-- A connection is named by the number of the event with which it came. -/
def step (r : Record) (e : Event) : Option Record := do
  let w ← r.world.step e
  some ⟨w, Notes.record.after r.count r.world w r.notes e, r.typed ++ r.types e, r.count + 1⟩

def Takes (r : Record) (e : Event) (r' : Record) : Prop := r.step e = some r'

theorem exists_record {d₀ : Daemon} {w : World} (hrun : Runs World.Takes World.Whole (.new d₀) w) :
    ∃ r, Runs Takes (fun r e => r.world.Whole e) (new d₀) r ∧ r.world = w := by
  induction hrun with
  | refl => exact ⟨new d₀, .refl, rfl⟩
  | tail _ hact ih =>
    obtain ⟨r, hrun, rfl⟩ := ih
    obtain ⟨e, hwhole, htakes⟩ := hact
    exact ⟨_, hrun.tail ⟨e, hwhole, Option.bind_eq_some_iff.mpr ⟨_, htakes, rfl⟩⟩, rfl⟩

end Record

def typedBy (name : Nat) (ts : List Typed) : List (List UInt8) :=
  (ts.filter fun t => t.name = name).map Typed.bytes

def typedTo (id : SessionId) (ts : List Typed) : List UInt8 :=
  (ts.filter fun t => t.leaf = id).flatMap Typed.bytes

def inputIn (fs : List Frame) : List (List UInt8) :=
  fs.filterMap fun
    | .data bytes => some bytes
    | _ => none

@[simp] theorem typedBy_append (name : Nat) (ts ts' : List Typed) :
    typedBy name (ts ++ ts') = typedBy name ts ++ typedBy name ts' := by
  simp [typedBy]

theorem typedBy_eq_nil {name : Nat} {ts : List Typed} (h : ∀ t ∈ ts, t.name ≠ name) :
    typedBy name ts = [] := by
  simpa [typedBy] using h

@[simp] theorem typedTo_append (id : SessionId) (ts ts' : List Typed) :
    typedTo id (ts ++ ts') = typedTo id ts ++ typedTo id ts' := by
  simp [typedTo]

@[simp] theorem inputIn_append (fs fs' : List Frame) : inputIn (fs ++ fs') = inputIn fs ++ inputIn fs' := by
  simp [inputIn]

-- ---------------------------------------------------------------------------
-- What is noted of one connection
-- ---------------------------------------------------------------------------

/-- The note and what is on its way are all that the host has sent. -/
theorem carried_note : Carried .record (fun _ => True) fun n => Said (n.came ++ n.ahead) where
  connect _ hup hhost := .connect hup hhost
  call h hcall := h.call hcall
  start h := h.start
  read h hinbox fed hbrings := h.read hinbox fed hbrings
  receive h _ _ := h.receive _ _
  grown h hc := h.grown hc
  unread {n l c} reads h := by
    change Said (n.came ++ (n.ahead ++ [])) _ _
    rw [List.append_nil]
    exact h.unread reads
  fetch {n l c piece gs decoder} reads h hpiece hpush := by
    change Said (n.came ++ (n.ahead ++ gs)) _ _
    rw [← List.append_assoc]
    exact h.fetch reads hpiece hpush
  come {n l c} h := by
    change Said (n.came ++ n.ahead.take 1 ++ n.ahead.tail) _ _
    rw [List.append_assoc, ← List.drop_one, List.take_append_drop]
    exact h

namespace Record

/-- What is read and not come to is the batch. -/
def Level (w : World) (notes : List Note) : Prop :=
  ∀ i n, notes[i]? = some n → n.ahead = if i = w.reading then w.batch else []

/-- What was given on a connection is some of the input that came on it, in order. -/
structure Named (r : Record) : Prop where
  nodup : (r.notes.map Note.name).Nodup
  notes_lt : ∀ n ∈ r.notes, n.name < r.count
  typed_lt : ∀ t ∈ r.typed, t.name < r.count
  typed : ∀ n ∈ r.notes, (typedBy n.name r.typed).Sublist (inputIn n.came)

/-- The record tells how the world came about. -/
structure Tells (r : Record) : Prop where
  plumbed : Plumbed (fun n => Said (n.came ++ n.ahead)) r.world r.notes
  given : Daemon.Given (fun id => typedTo id r.typed) r.world.daemon
  level : Level r.world r.notes
  named : r.Named

-- ---------------------------------------------------------------------------
-- The children
-- ---------------------------------------------------------------------------

theorem daemon_after (w : World) (a : Act) (d : Daemon) : (w.after a d).daemon = d := by
  cases a with
  | flush =>
    unfold World.after
    dsimp only
    split
    case h_1 => rfl
    case h_2 => rfl
  | accept | spawn | fetch | frame | reap | drain | resync => rfl

theorem types_dispatch {r : Record} {m : Moment} {f : Frame} {batch : List Frame} {n : Note}
    (hbatch : r.world.batch = f :: batch) (hn : r.notes[r.world.reading]? = some n) :
    r.types (.dispatch m) =
      (r.world.daemon.gives m r.world.reading f).toList.map fun g => ⟨n.name, g.1, g.2⟩ := by
  simp only [types, hbatch, hn]

theorem types_dispatch_none {r : Record} {m : Moment} (hn : r.notes[r.world.reading]? = none) :
    r.types (.dispatch m) = [] := by
  cases hbatch : r.world.batch <;> simp only [types, hbatch, hn]

/-- What an event gives to a child, the record tells. -/
theorem Tells.given_step {r : Record} (h : r.Tells) {e : Event} {w : World} (htakes : r.world.Takes e w) :
    Daemon.Given (fun id => typedTo id (r.typed ++ r.types e)) w.daemon := by
  have hquiet {d : Daemon} (hd : Daemon.Given (fun id => typedTo id r.typed) d) (hnone : r.types e = []) :
      Daemon.Given (fun id => typedTo id (r.typed ++ r.types e)) d := by
    rwa [hnone, List.append_nil]
  cases htakes.comes with
  | connect => exact hquiet (h.given.of_session rfl) rfl
  | call | pump | read | receive => exact hquiet h.given rfl
  | @fetch slot _ _ _ _ _ _ _ _ hfetch =>
    have hd := Daemon.Given.fetchFrames slot _ h.given
    rw [hfetch] at hd
    exact hquiet hd rfl
  | @act a _ _ hapart hexec =>
    have hframe : ∀ m idx f, a ≠ .frame m idx f := by
      rintro m idx f rfl
      cases hapart
    have hd := Daemon.Given.act hframe _ h.given
    rw [hexec] at hd
    refine hquiet ?_ rfl
    rwa [daemon_after]
  | @dispatch m f _ _ hbatch hdispatch =>
    have hd := h.given.dispatchFrame hdispatch
    have htypes (id : SessionId) :
        typedTo id (r.types (.dispatch m)) = inputOf (r.world.daemon.gives m r.world.reading f).toList id := by
      cases hn : r.notes[r.world.reading]? with
      | none =>
        -- where there is no note there is no connection
        have hle := List.getElem?_eq_none_iff.mp hn
        rw [h.plumbed.noted, h.plumbed.length] at hle
        have hc := List.getElem?_eq_none_iff.mpr hle
        rw [types_dispatch_none hn]
        cases f with
        | data bytes => simp [gives, hc, typedTo]
        | _ => rfl
      | some n =>
        rw [types_dispatch hbatch hn]
        cases r.world.daemon.gives m r.world.reading f with
        | none => rfl
        | some g => by_cases hid : g.1 = id <;> simp [typedTo, inputOf, hid]
    simpa [htypes] using hd

-- ---------------------------------------------------------------------------
-- The notes
-- ---------------------------------------------------------------------------

theorem Level.quiet {w w' : World} {ns ns' : List Note} (h : Level w ns) (hbatch : w.batch = [])
    (hns : ∀ n' ∈ ns', n'.ahead = [] ∨ n' ∈ ns) (hbatch' : w'.batch = []) : Level w' ns' := by
  intro i n hn
  have hnone : n.ahead = [] := by
    rcases hns n (List.mem_of_getElem? hn) with hnone | hmem
    · exact hnone
    · obtain ⟨j, hj⟩ := List.mem_iff_getElem?.mp hmem
      simpa [hbatch] using h j n hj
  simp [hnone, hbatch']

theorem batch_after (w : World) (a : Act) (d : Daemon) : (w.after a d).batch = w.batch := by
  cases a with
  | flush =>
    unfold World.after
    dsimp only
    split
    case h_1 => rfl
    case h_2 => rfl
  | accept | spawn | fetch | frame | reap | drain | resync => rfl

theorem after_act_subset (N : Notes Note) (count : Nat) (w w' : World) (ns : List Note) (a : Act) :
    N.after count w w' ns (.act a) ⊆ ns := by
  cases a with
  | flush =>
    unfold Notes.after
    dsimp only
    split
    case h_1 slot _ => exact List.eraseIdx_subset
    case h_2 => exact List.Subset.refl ns
  | accept | spawn | fetch | frame | reap | drain | resync => exact List.Subset.refl ns

theorem Level.step {r : Record} {w : World} {e : Event} (h : Level r.world r.notes) (hwhole : r.world.Whole e)
    (htakes : r.world.Takes e w) : Level w (Notes.record.after r.count r.world w r.notes e) := by
  cases htakes.comes with
  | connect hbatch => 
    refine h.quiet hbatch (fun n hn => ?_) hbatch
    rcases List.mem_append.mp hn with hold | hnew
    · exact .inr hold
    · exact .inl (by simp [List.mem_singleton.mp hnew, Notes.record])
  | call | pump | read | receive => exact h
  | act hbatch => 
    exact h.quiet hbatch (fun n hn => .inr (after_act_subset _ _ _ _ _ _ hn)) ((batch_after ..).trans hbatch)
  | @fetch slot l c batch d hbatch hl hc hbrings hfetch =>
    have hnone (i : Nat) (n : Note) (hn : r.notes[i]? = some n) : n.ahead = [] := by
      simpa [hbatch] using h i n hn
    have hkept (hclients : d.clients.length = r.world.daemon.clients.length) (lines : List Line) :
        Level ⟨d, lines, batch, slot⟩ (Notes.record.after r.count r.world ⟨d, lines, batch, slot⟩ r.notes
          (.fetch slot)) := by
      intro i n hn
      rw [Notes.after, Plumbed.kept_of_length hclients, if_neg Bool.false_ne_true] at hn
      obtain ⟨n, hn', rfl⟩ := Option.map_eq_some_iff.mp ((List.getElem?_modify ..).symm.trans hn)
      by_cases hi : slot = i
      · subst hi
        simp [Notes.record, hnone slot n hn']
      · simp [hi, Ne.symm hi, hnone i n hn']
    rcases fetch_cases hc hfetch with ⟨rfl, rfl⟩ | ⟨-, rfl, rfl⟩ | ⟨bytes, decoder, -, -, rfl⟩
    · refine h.quiet hbatch (fun n hn => .inr ?_) rfl
      rw [Notes.after, Plumbed.lost_of_clients hc (clients_dropClient _ slot), if_pos rfl] at hn
      exact List.eraseIdx_subset hn
    · exact hkept List.length_set _
    · exact hkept List.length_set _
  | @dispatch m f batch d hbatch hdispatch =>
    rcases dispatch_cases hdispatch with hgrown | ⟨hattach, hleaf, ⟨c, hc⟩, rfl⟩
    · intro i n hn
      rw [Notes.after, Plumbed.kept_of_length hgrown.length_eq.symm, if_neg Bool.false_ne_true] at hn
      obtain ⟨n, hn', rfl⟩ := Option.map_eq_some_iff.mp ((List.getElem?_modify ..).symm.trans hn)
      have hahead := h i n hn'
      by_cases hi : r.world.reading = i
      · simp [Notes.record, hi, hahead, hbatch]
      · simp [hi, Ne.symm hi, hahead]
    · -- all other connections have been come to, and this one is gone
      have hrest : batch = [] := by
        simpa [hbatch] using hwhole f (by simp [hbatch]) hattach hleaf
      subst hrest
      intro i n hn
      rw [Notes.after, Plumbed.lost_of_clients hc (clients_dropClient _ _), if_pos rfl] at hn
      obtain ⟨j, hj, hslots⟩ := exists_slot r.world.reading i
      have hahead := h j n ((hslots r.notes).symm.trans hn)
      simpa [hj] using hahead

/-- A note after an event is the note of a connection that was there before it, or just came. -/
theorem exists_before {r : Record} {w : World} {e : Event} {n' : Note}
    (h : n' ∈ Notes.record.after r.count r.world w r.notes e) (he : ∀ m, e ≠ .dispatch m) :
    n'.came = [] ∧ n'.name = r.count ∨ ∃ n ∈ r.notes, n'.name = n.name ∧ n'.came = n.came := by
  cases e with
  | dispatch m => exact absurd rfl (he m)
  | connect =>
    rcases List.mem_append.mp h with hold | hnew
    · exact .inr ⟨n', hold, rfl, rfl⟩
    · exact .inl (by simp [List.mem_singleton.mp hnew, Notes.record])
  | fetch slot =>
    refine .inr ?_
    unfold Notes.after at h
    dsimp only at h
    split at h
    case isTrue => exact ⟨n', List.eraseIdx_subset h, rfl, rfl⟩
    case isFalse =>
      rcases mem_modify_cases h with ⟨n, hn, rfl⟩ | ⟨j, -, hj⟩
      · exact ⟨n, List.mem_of_getElem? hn, rfl, rfl⟩
      · exact ⟨n', List.mem_of_getElem? hj, rfl, rfl⟩
  | act a => exact .inr ⟨n', after_act_subset _ _ _ _ _ _ h, rfl, rfl⟩
  | call | pump | read | receive => exact .inr ⟨n', h, rfl, rfl⟩

/-- The names of the connections that are left, and of the one that comes. -/
theorem names_after (r : Record) (w : World) (e : Event) :
    ((Notes.record.after r.count r.world w r.notes e).map Note.name).Sublist
      (r.notes.map Note.name ++ [r.count]) := by
  have hsame : (r.notes.map Note.name).Sublist (r.notes.map Note.name ++ [r.count]) :=
    List.sublist_append_left ..
  have herase (slot : Nat) : ((r.notes.eraseIdx slot).map Note.name).Sublist
      (r.notes.map Note.name ++ [r.count]) := ((List.eraseIdx_sublist ..).map _).trans hsame
  cases e with
  | connect => simp [Notes.after, Notes.record]
  | call | pump | read | receive => exact hsame
  | fetch slot =>
    unfold Notes.after
    dsimp only
    split
    case isTrue => exact herase slot
    case isFalse => rwa [map_modify_congr fun n => by rfl]
  | dispatch m =>
    unfold Notes.after
    dsimp only
    split
    case isTrue => exact herase _
    case isFalse => rwa [map_modify_congr fun n => by rfl]
  | act a =>
    cases a with
    | flush =>
      unfold Notes.after
      dsimp only
      split
      case h_1 slot _ => exact herase slot
      case h_2 => exact hsame
    | accept | spawn | fetch | frame | reap | drain | resync => exact hsame

theorem exists_dispatched {r : Record} {w : World} {m : Moment} {n' : Note}
    (h : n' ∈ Notes.record.after r.count r.world w r.notes (.dispatch m)) :
    (∃ n, r.notes[r.world.reading]? = some n ∧ n' = Notes.record.come n) ∨
      ∃ j, j ≠ r.world.reading ∧ r.notes[j]? = some n' := by
  unfold Notes.after at h
  dsimp only at h
  split at h
  case isTrue =>
    obtain ⟨i, hi⟩ := List.mem_iff_getElem?.mp h
    obtain ⟨j, hj, hslots⟩ := exists_slot r.world.reading i
    exact .inr ⟨j, hj, (hslots r.notes).symm.trans hi⟩
  case isFalse => exact mem_modify_cases h

theorem types_eq_nil (r : Record) {e : Event} (he : ∀ m, e ≠ .dispatch m) : r.types e = [] := by
  cases e with
  | dispatch m => exact absurd rfl (he m)
  | connect | call | pump | read | receive | fetch | act => rfl

/-- What an event gives comes on the connection that is read. -/
theorem exists_typed {r : Record} {e : Event} {t : Typed} (h : t ∈ r.types e) :
    ∃ n, r.notes[r.world.reading]? = some n ∧ t.name = n.name := by
  cases e with
  | dispatch m =>
    cases hbatch : r.world.batch with
    | nil => simp [types, hbatch] at h
    | cons f batch =>
      cases hn : r.notes[r.world.reading]? with
      | none => simp [types_dispatch_none hn] at h
      | some n =>
        rw [types_dispatch hbatch hn] at h
        obtain ⟨g, -, rfl⟩ := List.mem_map.mp h
        exact ⟨n, rfl, rfl⟩
  | connect | call | pump | read | receive | fetch | act => cases h

/-- What a frame gives is that of its connection, and of no other. -/
theorem Named.dispatch {r : Record} {w : World} {m : Moment} (h : r.Named) (hlevel : Level r.world r.notes)
    (htakes : r.world.Takes (.dispatch m) w) {n : Note}
    (hn : n ∈ Notes.record.after r.count r.world w r.notes (.dispatch m)) :
    (typedBy n.name (r.typed ++ r.types (.dispatch m))).Sublist (inputIn n.came) := by
  cases htakes.comes with
  | @dispatch m f batch d hbatch =>
  rw [typedBy_append]
  rcases exists_dispatched hn with ⟨k, hk, rfl⟩ | ⟨j, hj, hn⟩
  · have hahead : k.ahead = f :: batch := by simpa [hbatch] using hlevel _ k hk
    change (typedBy k.name r.typed ++ typedBy k.name _).Sublist (inputIn (k.came ++ k.ahead.take 1))
    rw [inputIn_append, types_dispatch hbatch hk]
    refine (h.typed k (List.mem_of_getElem? hk)).append ?_
    rcases gives_cases r.world.daemon m r.world.reading f with hnone | ⟨id, bytes, rfl, hsome⟩
    · simp [hnone, typedBy]
    · simp [hsome, hahead, typedBy, inputIn]
  · have hquiet : typedBy n.name (r.types (.dispatch m)) = [] := by
      refine typedBy_eq_nil fun t ht heq => ?_
      obtain ⟨k, hk, hname⟩ := exists_typed ht
      -- no two connections have one name
      have hlt := (List.getElem?_eq_some_iff.mp hn).1
      refine hj ((List.getElem?_inj (by simpa using hlt) h.nodup).mp ?_)
      simp [hn, hk, ← hname, heq]
    rw [hquiet, List.append_nil]
    exact h.typed n (List.mem_of_getElem? hn)

theorem Named.others {r : Record} {w : World} {e : Event} (h : r.Named) (he : ∀ m, e ≠ .dispatch m)
    {n : Note} (hn : n ∈ Notes.record.after r.count r.world w r.notes e) :
    (typedBy n.name (r.typed ++ r.types e)).Sublist (inputIn n.came) := by
  rw [types_eq_nil r he, List.append_nil]
  rcases exists_before hn he with ⟨hcame, hname⟩ | ⟨k, hk, hname, hcame⟩
  · -- nothing has come on the connection that just came
    rw [typedBy_eq_nil fun t ht => hname ▸ Nat.ne_of_lt (h.typed_lt t ht)]
    exact List.nil_sublist _
  · rw [hname, hcame]
    exact h.typed k hk

theorem Named.step {r : Record} {w : World} {e : Event} (h : r.Named) (hlevel : Level r.world r.notes)
    (htakes : r.world.Takes e w) :
    Named ⟨w, Notes.record.after r.count r.world w r.notes e, r.typed ++ r.types e, r.count + 1⟩ := by
  have hlt : ∀ name ∈ r.notes.map Note.name, name < r.count := by
    simpa using h.notes_lt
  have hsub := names_after r w e
  refine ⟨?_, fun n hn => ?_, fun t ht => ?_, fun n hn => ?_⟩
  · refine List.Nodup.sublist hsub (List.nodup_append.mpr ⟨h.nodup, by simp, ?_⟩)
    intro name hname count hcount
    exact List.mem_singleton.mp hcount ▸ Nat.ne_of_lt (hlt name hname)
  · rcases List.mem_append.mp (hsub.mem (List.mem_map_of_mem hn)) with hold | hnew
    · exact Nat.lt_succ_of_lt (hlt _ hold)
    · simp [List.mem_singleton.mp hnew]
  · rcases List.mem_append.mp ht with hold | hnew
    · exact Nat.lt_succ_of_lt (h.typed_lt t hold)
    · obtain ⟨n, hn, hname⟩ := exists_typed hnew
      exact Nat.lt_succ_of_lt (hname ▸ h.notes_lt n (List.mem_of_getElem? hn))
  · cases e with
    | dispatch m => exact h.dispatch hlevel htakes hn
    | connect | call | pump | read | receive | fetch | act => exact h.others (w := w) (by simp) hn

-- ---------------------------------------------------------------------------
-- Every run
-- ---------------------------------------------------------------------------

theorem Tells.new {turns : List Turn} {size : Winsize} {isWorker : Bool} {d₀ : Daemon}
    (hbind : Daemon.bind (.spawn size turns) size isWorker = .ok d₀) : (Record.new d₀).Tells where
  plumbed := .new (bind_ok hbind).1
  given := .bind hbind
  level i n hn := by simp [Record.new] at hn
  named := ⟨List.nodup_nil, List.forall_mem_nil _, List.forall_mem_nil _, List.forall_mem_nil _⟩

theorem Tells.step {r r' : Record} {e : Event} (h : r.Tells) (hwhole : r.world.Whole e)
    (htakes : r.Takes e r') : r'.Tells := by
  obtain ⟨w, hstep, hr'⟩ := Option.bind_eq_some_iff.mp htakes
  obtain rfl := Option.some.inj hr'
  have hmeets : Meets (fun _ => True) r.world e := by cases e <;> simp [Meets]
  exact ⟨h.plumbed.step carried_note hmeets hstep r.count, h.given_step hstep, h.level.step hwhole hstep,
    h.named.step h.level hstep⟩

/-- The children have been given just what is noted, and what was given of a connection is some of
the input that came on it: whole DATA, in order, each once. -/
theorem typed_once {turns : List Turn} {size : Winsize} {isWorker : Bool} {d₀ : Daemon} {r : Record}
    (hbind : Daemon.bind (.spawn size turns) size isWorker = .ok d₀)
    (hrun : Runs Record.Takes (fun r e => r.world.Whole e) (.new d₀) r) :
    (∀ id s, r.world.daemon.session id = some s → s.pty.input = typedTo id r.typed) ∧
      (r.notes.map Note.name).Nodup ∧
        ∀ slot l c, r.world.lines[slot]? = some l → r.world.daemon.clients[slot]? = some c →
          ∃ n, r.notes[slot]? = some n ∧
            framesIn (l.host.stream.sent ++ l.host.outbox) = n.came ++ r.world.coming slot l c ∧
              (typedBy n.name r.typed).Sublist (inputIn n.came) := by
  have htells := Runs.invariant (I := Record.Tells) (fun _ _ _ h hwhole htakes => h.step hwhole htakes) hrun
    (.new hbind)
  refine ⟨fun id s hs => (htells.given.leaf id s hs).took.1, htells.named.nodup, fun slot l c hl hc => ?_⟩
  obtain ⟨n, hn, hsaid⟩ := htells.plumbed.exists_note hl hc
  refine ⟨n, hn, ?_, htells.named.typed n (List.mem_of_getElem? hn)⟩
  rw [hsaid.framesIn_eq, htells.level slot n hn, World.coming, List.append_assoc]

/-- A host types twice, and the child has both. -/
theorem typed_once_twice :
    ∃ d₀ r, Daemon.bind (.spawn ⟨3, 1, 0, 0⟩ []) ⟨3, 1, 0, 0⟩ false = .ok d₀ ∧
      Runs Record.Takes (fun r e => r.world.Whole e) (.new d₀) r ∧ typedTo ⟨1⟩ r.typed = [104, 105] ∧
        ∃ l ∈ r.world.lines[0]?, ∃ c ∈ r.world.daemon.clients[0]?, ∃ n ∈ r.notes[0]?,
          framesIn (l.host.stream.sent ++ l.host.outbox) = n.came ++ r.world.coming 0 l c ∧
            (typedBy n.name r.typed).Sublist (inputIn n.came) := by
  obtain ⟨d₀, w, hbind, hrun, hfound⟩ := exists_followed World.Whole [] ⟨3, 1, 0, 0⟩
    [.connect
        ⟨[.data ((Frame.attachWriter 1 none).wire ++ (Frame.credit Host.creditWindow).wire ++
            (Frame.data [104]).wire ++ (Frame.data [105]).wire)],
          [.accept 1000], []⟩
        ⟨[], [.accept 1000, .accept 1000, .accept 1000, .accept 1000], []⟩ ⟨3, 1, none⟩ none,
      .call 0 (.sendInput [104]), .call 0 (.sendInput [105]), .fetch 0, .dispatch ⟨0, 3600⟩,
      .dispatch ⟨0, 3600⟩, .dispatch ⟨0, 3600⟩, .dispatch ⟨0, 3600⟩]
    (p := fun w => (w.daemon.session ⟨1⟩).any (fun s => s.pty.input = [104, 105]) &&
      (w.lines[0]?.isSome && w.daemon.clients[0]?.isSome))
    (by decide +kernel)
  simp only [Bool.and_eq_true, Option.any_eq_true, decide_eq_true_eq, Option.isSome_iff_exists] at hfound
  obtain ⟨⟨s, hs, hinput⟩, ⟨l, hl⟩, c, hc⟩ := hfound
  obtain ⟨r, hrecord, rfl⟩ := exists_record hrun
  obtain ⟨htyped, -, hnotes⟩ := typed_once hbind hrecord
  obtain ⟨n, hn, hcame, hsub⟩ := hnotes 0 l c hl hc
  exact ⟨d₀, r, hbind, hrecord, (htyped _ s hs).symm.trans hinput, l, hl, c, hc, n, hn, hcame, hsub⟩

end Record

end Rill.Link
