import Rill.Daemon.Content
import Rill.Daemon.Flush
import Rill.Lib.Log
import Rill.Lib.Serial

/-!
# Connections on the content channel

A connection brings one request, in as many pieces as the socket cuts it into, and is
closed when its response is written. Many are open at a time. What they do to the
timelines is what their requests do one after the other, in the order in which the last
piece of each is read.
-/

namespace Rill.Daemon

open Lib

/-- `number` says how many connections were accepted before, and `failed` that a read of it
came to an end or that a write of it came to an error; the daemon looks at neither. -/
structure ContentConnection where
  stream : Stream
  input : List UInt8
  output : List UInt8
  handled : Bool
  number : Nat
  failed : Bool
  deriving DecidableEq, Repr

/-- What was answered, to which connection and with the daemon as it stood then. The
request is `none` where the bytes were none. -/
structure Reply where
  number : Nat
  daemon : Daemon
  request : Option ContentRequest
  response : List UInt8

/-- `accepted` is the number of connections there ever were, `closed` those that are gone,
and `served` what was answered; the daemon looks at none of the three. -/
structure Channel where
  conns : List ContentConnection
  timelines : Timelines
  accepted : Nat
  closed : List ContentConnection
  served : List Reply

/-- What the reads of one turn come to. -/
inductive Listened
  | blocked
  | overflow
  | gone
  deriving DecidableEq, Repr

/-- What a turn makes of the bytes that a connection has sent. -/
inductive Heard
  | waits
  | gone
  | asks (request : Option ContentRequest)
  deriving DecidableEq, Repr

def contentBufLen : Nat := 4096

/-- Reads until there is nothing to read for now, with the reads left and the input. -/
def readContent : List Read → List UInt8 → Listened × List Read × List UInt8
  | [], input => (.blocked, [], input)
  | .data bytes :: reads, input =>
    let bytes := bytes.take contentBufLen
    if bytes.isEmpty then (.gone, reads, input)
    else if input.length + bytes.length > contentRequestMax + 17 then (.overflow, reads, input)
    else readContent reads (input ++ bytes)
  | .eof :: reads, input => (.gone, reads, input)
  | .wouldBlock :: reads, input => (.blocked, reads, input)
  | .failed :: reads, input => (.gone, reads, input)

namespace ContentConnection

def new (reads : List Read) (writes : List Write) (number : Nat) : ContentConnection :=
  ⟨⟨reads, writes, []⟩, [], [], false, number, false⟩

def took (c : ContentConnection) (reads : List Read) (input : List UInt8) : ContentConnection :=
  { c with stream := { c.stream with reads }, input }

def hear (c : ContentConnection) : Heard × ContentConnection :=
  let (turn, reads, input) := readContent c.stream.reads c.input
  let c := c.took reads input
  match turn with
  | .gone => (.gone, { c with failed := true })
  | .overflow => (.asks none, c)
  | .blocked =>
    match decodeContentRequest input with
    | .ok (some request) => (.asks (some request), c)
    | .ok none => (.waits, c)
    | .error () => (.asks none, c)

def answer (c : ContentConnection) (response : List UInt8) : ContentConnection :=
  { c with output := response, handled := true }

/-- `write_outbox` on the connection; whether it stays. -/
def write (c : ContentConnection) : Bool × ContentConnection :=
  let (ok, writes, output, sent) := Client.writeLoop c.stream.writes c.output c.stream.sent
  let c := { c with stream := { c.stream with writes, sent }, output, failed := c.failed || !ok }
  (ok && !output.isEmpty, c)

end ContentConnection

/-- The answer to what a connection asks, and the timelines after it. -/
def answerTo (timelines : Timelines) (call : Daemon × Option ContentRequest) :
    List UInt8 × Timelines :=
  match call.2 with
  | some request => call.1.contentResponse request timelines
  | none => (contentErrorResponse 1, timelines)

namespace Channel

def new : Channel := ⟨[], Table.empty, 0, [], []⟩

def keep (ch : Channel) (c : ContentConnection) : Channel := { ch with conns := ch.conns ++ [c] }

def remove (ch : Channel) (c : ContentConnection) : Channel := { ch with closed := ch.closed ++ [c] }

def writeTo (ch : Channel) (c : ContentConnection) : Channel :=
  match c.write with
  | (true, c) => ch.keep c
  | (false, c) => ch.remove c

def serve (d : Daemon) (ch : Channel) (number : Nat) (request : Option ContentRequest) : Channel :=
  let (response, timelines) := answerTo ch.timelines (d, request)
  { ch with timelines, served := ch.served ++ [⟨number, d, request, response⟩] }

/-- One turn of the loop, for one connection. -/
def pollConnection (d : Daemon) (ch : Channel) (c : ContentConnection) : Channel :=
  if c.handled then ch.writeTo c
  else
    match c.hear with
    | (.waits, c) => ch.keep c
    | (.gone, c) => ch.remove c
    | (.asks request, c) =>
      (ch.serve d c.number request).writeTo (c.answer (answerTo ch.timelines (d, request)).1)

/-- `poll_content_commands`. -/
def poll (d : Daemon) (ch : Channel) : Channel :=
  ch.conns.foldl (pollConnection d) { ch with conns := [] }

/-- `accept_cold_content`, when a connection is there. -/
def accept (ch : Channel) (reads : List Read) (writes : List Write) : Channel :=
  { ch with
    conns := ch.conns ++ [.new reads writes ch.accepted]
    accepted := ch.accepted + 1 }

/-- What happens on the channel; between its polls the daemon may do anything else. -/
inductive Event
  | accept (reads : List Read) (writes : List Write)
  | poll (d : Daemon)

def next (ch : Channel) : Event → Channel
  | .accept reads writes => ch.accept reads writes
  | .poll d => ch.poll d

def run (events : List Event) : Channel := events.foldl next .new

def connections (ch : Channel) : List ContentConnection := ch.conns ++ ch.closed

def history (ch : Channel) : List ((Daemon × Option ContentRequest) × List UInt8) :=
  ch.served.map fun s => ((s.daemon, s.request), s.response)

end Channel

-- ---------------------------------------------------------------------------
-- One connection
-- ---------------------------------------------------------------------------

/-- Where a connection stands: it was sent nothing, and nothing was answered to it, or its
answer is sent or still to be sent. -/
inductive Stands (served : List Reply) (c : ContentConnection) : Prop
  | unanswered (hhandled : c.handled = false) (hsent : c.stream.sent = []) (houtput : c.output = [])
      (hnone : ∀ s ∈ served, s.number ≠ c.number) : Stands served c
  | answered {s : Reply} (hmem : s ∈ served) (hnumber : s.number = c.number)
      (hhandled : c.handled = true) (hbytes : c.stream.sent ++ c.output = s.response) : Stands served c

namespace ContentConnection

structure Heeds (c c' : ContentConnection) : Prop where
  sent : c'.stream.sent = c.stream.sent
  output : c'.output = c.output
  handled : c'.handled = c.handled
  number : c'.number = c.number

theorem hear_heeds (c : ContentConnection) : c.Heeds c.hear.2 := by
  rw [hear]
  rcases readContent c.stream.reads c.input with ⟨turn, reads, input⟩
  cases turn with
  | blocked =>
    dsimp only
    rcases decodeContentRequest input with _ | _ | request
    · exact ⟨rfl, rfl, rfl, rfl⟩
    · exact ⟨rfl, rfl, rfl, rfl⟩
    · exact ⟨rfl, rfl, rfl, rfl⟩
  | overflow => exact ⟨rfl, rfl, rfl, rfl⟩
  | gone => exact ⟨rfl, rfl, rfl, rfl⟩

theorem failed_of_hear_waits {c : ContentConnection} (h : c.hear.1 = .waits) :
    c.hear.2.failed = c.failed := by
  revert h
  rw [hear]
  rcases readContent c.stream.reads c.input with ⟨turn, reads, input⟩
  cases turn with
  | blocked =>
    dsimp only
    rcases decodeContentRequest input with _ | _ | request
    all_goals simp [took]
  | overflow => simp
  | gone => simp

theorem failed_of_hear_asks {c : ContentConnection} {request : Option ContentRequest}
    (h : c.hear.1 = .asks request) : c.hear.2.failed = c.failed := by
  revert h
  rw [hear]
  rcases readContent c.stream.reads c.input with ⟨turn, reads, input⟩
  cases turn with
  | blocked =>
    dsimp only
    rcases decodeContentRequest input with _ | _ | request
    all_goals simp [took]
  | overflow => simp [took]
  | gone => simp

theorem failed_of_hear_gone {c : ContentConnection} (h : c.hear.1 = .gone) : c.hear.2.failed = true := by
  revert h
  rw [hear]
  rcases readContent c.stream.reads c.input with ⟨turn, reads, input⟩
  cases turn with
  | blocked =>
    dsimp only
    rcases decodeContentRequest input with _ | _ | request
    all_goals simp
  | overflow => simp
  | gone => simp

structure Writes (c c' : ContentConnection) : Prop where
  bytes : c'.stream.sent ++ c'.output = c.stream.sent ++ c.output
  handled : c'.handled = c.handled
  number : c'.number = c.number

theorem write_writes (c : ContentConnection) : c.Writes c.write.2 :=
  ⟨Client.writeLoop_bytes c.stream.writes c.output c.stream.sent, rfl, rfl⟩

theorem output_of_write {c : ContentConnection} (h : c.write.1 = false) (hfailed : c.write.2.failed = false) :
    c.write.2.output = [] := by
  revert h hfailed
  rw [write]
  rcases Client.writeLoop c.stream.writes c.output c.stream.sent with ⟨ok, writes, output, sent⟩
  simp only [Bool.and_eq_false_iff, Bool.not_eq_false', List.isEmpty_iff, Bool.or_eq_false_iff,
    and_imp]
  rintro (rfl | hempty) - hok
  · cases hok
  · exact hempty

theorem stays_of_write {c : ContentConnection} (h : c.write.1 = true) :
    c.write.2.failed = c.failed ∧ c.write.2.output ≠ [] := by
  revert h
  rw [write]
  rcases Client.writeLoop c.stream.writes c.output c.stream.sent with ⟨ok, writes, output, sent⟩
  simp only [Bool.and_eq_true, Bool.not_eq_true', List.isEmpty_eq_false_iff, and_imp]
  rintro rfl hne
  exact ⟨by simp, hne⟩

end ContentConnection

namespace Stands

variable {served : List Reply} {c c' : ContentConnection}

theorem hear (h : Stands served c) (hheeds : c.Heeds c') : Stands served c' := by
  cases h with
  | unanswered hhandled hsent houtput hnone =>
    refine .unanswered ?_ ?_ ?_ ?_
    · rw [hheeds.handled, hhandled]
    · rw [hheeds.sent, hsent]
    · rw [hheeds.output, houtput]
    · rwa [hheeds.number]
  | answered hmem hnumber hhandled hbytes =>
    refine .answered hmem ?_ ?_ ?_
    · rw [hheeds.number, hnumber]
    · rw [hheeds.handled, hhandled]
    · rw [hheeds.sent, hheeds.output, hbytes]

theorem write (h : Stands served c) (hhandled : c.handled = true) (hwrites : c.Writes c') :
    Stands served c' := by
  cases h with
  | unanswered hnot => simp [hhandled] at hnot
  | answered hmem hnumber _ hbytes =>
    refine .answered hmem ?_ ?_ ?_
    · rw [hwrites.number, hnumber]
    · rw [hwrites.handled, hhandled]
    · rw [hwrites.bytes, hbytes]

theorem other (h : Stands served c) {s : Reply} (hs : s.number ≠ c.number) :
    Stands (served ++ [s]) c := by
  cases h with
  | unanswered hhandled hsent houtput hnone =>
    refine .unanswered hhandled hsent houtput ?_
    simpa [or_imp, forall_and, hs] using hnone
  | answered hmem hnumber hhandled hbytes =>
    exact .answered (List.mem_append_left _ hmem) hnumber hhandled hbytes

end Stands

namespace Channel

-- ---------------------------------------------------------------------------
-- The invariant
-- ---------------------------------------------------------------------------

/-- The connections `cs` have been answered one after the other, each at most once. -/
structure Lawful (ch : Channel) (cs : List ContentConnection) : Prop where
  serial : Serial answerTo Table.empty ch.history ch.timelines
  numbers : (cs.map ContentConnection.number).Nodup
  below : ∀ c ∈ cs, c.number < ch.accepted
  once : (ch.served.map Reply.number).Nodup
  known : ∀ s ∈ ch.served, s.number < ch.accepted
  stands : ∀ c ∈ cs, Stands ch.served c

namespace Lawful

variable {ch ch' : Channel} {cs cs' : List ContentConnection} {c c' : ContentConnection}

theorem perm (h : Lawful ch cs) (hperm : cs.Perm cs') : Lawful ch cs' where
  serial := h.serial
  numbers := (hperm.map _).nodup_iff.mp h.numbers
  below c hc := h.below c (hperm.mem_iff.mpr hc)
  once := h.once
  known := h.known
  stands c hc := h.stands c (hperm.mem_iff.mpr hc)

theorem swap (h : Lawful ch (c :: cs)) (hnumber : c'.number = c.number) (hstands : Stands ch.served c') :
    Lawful ch (c' :: cs) where
  serial := h.serial
  numbers := by simpa [hnumber] using h.numbers
  below := by simpa [hnumber] using h.below
  once := h.once
  known := h.known
  stands := by
    rintro x (_ | ⟨_, hx⟩)
    · exact hstands
    · exact h.stands x (List.mem_cons_of_mem _ hx)

theorem hear (h : Lawful ch (c :: cs)) : Lawful ch (c.hear.2 :: cs) :=
  h.swap c.hear_heeds.number ((h.stands c List.mem_cons_self).hear c.hear_heeds)

theorem write (h : Lawful ch (c :: cs)) (hhandled : c.handled = true) : Lawful ch (c.write.2 :: cs) :=
  h.swap c.write_writes.number ((h.stands c List.mem_cons_self).write hhandled c.write_writes)

theorem serve (h : Lawful ch (c :: cs)) (hhandled : c.handled = false) (d : Daemon)
    (request : Option ContentRequest) :
    Lawful (ch.serve d c.number request)
      (c.answer (answerTo ch.timelines (d, request)).1 :: cs) := by
  have hnew : (∀ s ∈ ch.served, s.number ≠ c.number) ∧ c.stream.sent = [] := by
    cases h.stands c List.mem_cons_self with
    | unanswered _ hsent _ hnone => exact ⟨hnone, hsent⟩
    | answered _ _ hdone => simp [hhandled] at hdone
  have hnumbers := h.numbers
  simp only [List.map_cons, List.nodup_cons, List.mem_map, not_exists, not_and] at hnumbers
  refine ⟨?_, h.numbers, ?_, ?_, ?_, ?_⟩
  · have hserial := h.serial.concat (d, request)
    simpa [history, Channel.serve] using hserial
  · exact List.forall_mem_cons.mpr (List.forall_mem_cons.mp h.below)
  · have hfresh : c.number ∉ ch.served.map Reply.number := by simpa using hnew.1
    exact nodup_map_concat (a := ⟨c.number, d, request, _⟩) h.once hfresh
  · intro s hs
    rcases List.mem_append.mp hs with hs | hs
    · exact h.known s hs
    · rw [List.mem_singleton.mp hs]
      exact h.below c List.mem_cons_self
  · rintro x (_ | ⟨_, hx⟩)
    · refine .answered (List.mem_append_right _ List.mem_cons_self) rfl rfl ?_
      simp only [ContentConnection.answer, hnew.2, List.nil_append]
      rfl
    · exact (h.stands x (List.mem_cons_of_mem _ hx)).other fun heq => hnumbers.1 x hx heq.symm

theorem accept (h : Lawful ch ch.connections) (reads : List Read) (writes : List Write) :
    Lawful (ch.accept reads writes) (ch.accept reads writes).connections := by
  have hperm : (.new reads writes ch.accepted :: ch.connections).Perm
      (ch.accept reads writes).connections := by
    have hmiddle : (ch.conns ++ .new reads writes ch.accepted :: ch.closed).Perm
        (.new reads writes ch.accepted :: (ch.conns ++ ch.closed)) := List.perm_middle
    simpa [connections, Channel.accept] using hmiddle.symm
  refine perm ⟨h.serial, ?_, ?_, h.once, ?_, ?_⟩ hperm
  · rw [List.map_cons, List.nodup_cons]
    refine ⟨fun hmem => ?_, h.numbers⟩
    obtain ⟨c, hc, hnumber⟩ := List.mem_map.mp hmem
    have hbelow := h.below c hc
    rw [hnumber] at hbelow
    exact Nat.lt_irrefl _ hbelow
  · rintro c (_ | ⟨_, hc⟩)
    · exact Nat.lt_succ_self _
    · exact Nat.lt_succ_of_lt (h.below c hc)
  · intro s hs
    exact Nat.lt_succ_of_lt (h.known s hs)
  · rintro c (_ | ⟨_, hc⟩)
    · exact .unanswered rfl rfl rfl fun s hs => Nat.ne_of_lt (h.known s hs)
    · exact h.stands c hc

end Lawful

-- ---------------------------------------------------------------------------
-- One turn
-- ---------------------------------------------------------------------------

/-- A connection that did not fail, and that has some of its answer to be sent if it has one. -/
def Lively (c : ContentConnection) : Prop := c.failed = false ∧ (c.handled = true → c.output ≠ [])

/-- What a turn does to the connection `c`: it goes on as `c'`, with the channel otherwise as
in `ch'`, and stays or is closed. -/
inductive Puts (c : ContentConnection) (ch' : Channel) (c' : ContentConnection) : Channel → Prop
  | stays (hlively : c.failed = false → Lively c') : Puts c ch' c' (ch'.keep c')
  | closes (hdone : c'.failed = false → c'.handled = true ∧ c'.output = []) :
      Puts c ch' c' (ch'.remove c')

theorem writeTo_puts (ch : Channel) {c₀ c : ContentConnection} (hfailed : c.failed = c₀.failed)
    (hhandled : c.handled = true) : Puts c₀ ch c.write.2 (ch.writeTo c) := by
  rw [writeTo]
  rcases hwrite : c.write with ⟨_ | _, c'⟩
  · refine .closes fun hfailed => ⟨?_, ?_⟩
    · have hkept := c.write_writes.handled
      rwa [hwrite, hhandled] at hkept
    · have hempty := c.output_of_write (by rw [hwrite])
      rw [hwrite] at hempty
      exact hempty hfailed
  · have hstays := c.stays_of_write (by rw [hwrite])
    rw [hwrite, hfailed] at hstays
    exact .stays fun hlive => ⟨hstays.1.trans hlive, fun _ => hstays.2⟩

/-- A turn for one connection hears it, answers it or writes to it. -/
inductive Polled (d : Daemon) (ch : Channel) (c : ContentConnection) : Channel → Prop
  | writes {ch'' : Channel} (hhandled : c.handled = true) (hputs : Puts c ch c.write.2 ch'') :
      Polled d ch c ch''
  | hears {ch'' : Channel} (hhandled : c.handled = false) (hrequest : ∀ request, c.hear.1 ≠ .asks request)
      (hputs : Puts c ch c.hear.2 ch'') : Polled d ch c ch''
  | answers {ch'' : Channel} (request : Option ContentRequest) (hhandled : c.handled = false)
      (hrequest : c.hear.1 = .asks request)
      (hputs : Puts c (ch.serve d c.number request)
        (c.hear.2.answer (answerTo ch.timelines (d, request)).1).write.2 ch'') : Polled d ch c ch''

theorem pollConnection_polled (d : Daemon) (ch : Channel) (c : ContentConnection) :
    Polled d ch c (ch.pollConnection d c) := by
  rw [pollConnection]
  cases hhandled : c.handled with
  | true => exact .writes hhandled (writeTo_puts ch rfl hhandled)
  | false =>
    rw [if_neg Bool.false_ne_true]
    have hgone := c.failed_of_hear_gone
    have hwaits := c.failed_of_hear_waits
    have hnumber := c.hear_heeds.number
    have hkept := c.hear_heeds.handled
    rcases hhear : c.hear with ⟨_ | _ | request, c'⟩
    · refine .hears hhandled (by simp [hhear]) ?_
      rw [hhear] at hwaits hkept ⊢
      refine .stays fun hlive => ⟨(hwaits rfl).trans hlive, fun hdone => ?_⟩
      rw [hkept, hhandled] at hdone
      cases hdone
    · refine .hears hhandled (by simp [hhear]) ?_
      rw [hhear] at hgone ⊢
      exact .closes fun hfailed => absurd ((hgone rfl).symm.trans hfailed) (by simp)
    · have hasks : c.hear.1 = .asks request := by rw [hhear]
      have hfailed := c.failed_of_hear_asks hasks
      refine .answers request hhandled hasks ?_
      rw [hhear] at hnumber hfailed ⊢
      rw [← hnumber]
      exact writeTo_puts _ hfailed rfl

/-- The connections that are not yet polled in this turn come first. -/
theorem Puts.lawful {ch' ch'' : Channel} {c c' : ContentConnection} {todo : List ContentConnection}
    (h : Lawful ch' (c' :: (todo ++ ch'.connections))) (hputs : Puts c ch' c' ch'') :
    Lawful ch'' (todo ++ ch''.connections) := by
  cases hputs with
  | stays =>
    have hperm : (c' :: (todo ++ ch'.connections)).Perm (todo ++ (ch'.keep c').connections) := by
      have hmiddle : (todo ++ ch'.conns ++ c' :: ch'.closed).Perm
          (c' :: (todo ++ ch'.conns ++ ch'.closed)) := List.perm_middle
      simpa [connections, keep] using hmiddle.symm
    exact { h.perm hperm with }
  | closes =>
    have hperm : (c' :: (todo ++ ch'.connections)).Perm (todo ++ (ch'.remove c').connections) := by
      have hmiddle := (List.perm_append_singleton c' (todo ++ ch'.connections)).symm
      simpa [connections, remove] using hmiddle
    exact { h.perm hperm with }

/-- A connection that is closed and did not fail was sent all of its answer, and one that is
open did not fail and was not. -/
structure Settled (ch : Channel) : Prop where
  closed : ∀ c ∈ ch.closed, c.failed = false → c.handled = true ∧ c.output = []
  conns : ∀ c ∈ ch.conns, Lively c

theorem Puts.settled {ch' ch'' : Channel} {c c' : ContentConnection} (hputs : Puts c ch' c' ch'')
    (h : ch'.Settled) (hlive : c.failed = false) : ch''.Settled := by
  cases hputs with
  | stays hlively =>
    refine ⟨h.closed, fun x hx => ?_⟩
    rcases List.mem_append.mp hx with hx | hx
    · exact h.conns x hx
    · rw [List.mem_singleton.mp hx]
      exact hlively hlive
  | closes hdone =>
    refine ⟨fun x hx => ?_, h.conns⟩
    rcases List.mem_append.mp hx with hx | hx
    · exact h.closed x hx
    · rwa [List.mem_singleton.mp hx]

theorem Lawful.pollConnection {ch : Channel} {c : ContentConnection} {todo : List ContentConnection}
    (h : Lawful ch (c :: (todo ++ ch.connections))) (d : Daemon) :
    Lawful (ch.pollConnection d c) (todo ++ (ch.pollConnection d c).connections) := by
  cases ch.pollConnection_polled d c with
  | writes hhandled hputs => exact hputs.lawful (h.write hhandled)
  | hears _ _ hputs => exact hputs.lawful h.hear
  | answers request hhandled _ hputs =>
    have hheard : c.hear.2.handled = false := c.hear_heeds.handled.trans hhandled
    have hserved := (h.hear.serve hheard d request).write rfl
    rw [c.hear_heeds.number] at hserved
    exact hputs.lawful hserved

theorem Lawful.poll {ch : Channel} (h : Lawful ch ch.connections) (d : Daemon) :
    Lawful (ch.poll d) (ch.poll d).connections := by
  have hfold : ∀ (todo : List ContentConnection) (ch : Channel), Lawful ch (todo ++ ch.connections) →
      Lawful (todo.foldl (Channel.pollConnection d) ch)
        (todo.foldl (Channel.pollConnection d) ch).connections := by
    intro todo
    induction todo with
    | nil => exact fun ch h => h
    | cons c todo ih => exact fun ch h => ih _ (h.pollConnection d)
  apply hfold
  exact { h with }

theorem settled_pollConnection {ch : Channel} (h : ch.Settled) (d : Daemon) {c : ContentConnection}
    (hlive : c.failed = false) : (ch.pollConnection d c).Settled := by
  cases ch.pollConnection_polled d c with
  | writes _ hputs => exact hputs.settled h hlive
  | hears _ _ hputs => exact hputs.settled h hlive
  | answers request _ _ hputs => exact hputs.settled ⟨h.closed, h.conns⟩ hlive

theorem settled_next {ch : Channel} (h : ch.Settled) (event : Event) : (ch.next event).Settled := by
  cases event with
  | accept reads writes =>
    refine ⟨h.closed, fun c hc => ?_⟩
    rcases List.mem_append.mp hc with hc | hc
    · exact h.conns c hc
    · rw [List.mem_singleton.mp hc]
      exact ⟨rfl, fun hdone => (nomatch hdone)⟩
  | poll d =>
    exact List.foldlRecOn ch.conns (pollConnection d) ⟨h.closed, fun _ hc => (nomatch hc)⟩
      fun ch' h' c hc => settled_pollConnection h' d (h.conns c hc).1

theorem settled_run (events : List Event) : (run events).Settled :=
  List.foldlRecOn events next ⟨fun _ hc => (nomatch hc), fun _ hc => (nomatch hc)⟩
    fun _ h event _ => settled_next h event

theorem lawful_run (events : List Event) : Lawful (run events) (run events).connections := by
  have hnew : Lawful .new new.connections :=
    ⟨rfl, .nil, fun _ hc => (nomatch hc), .nil, fun _ hs => (nomatch hs), fun _ hc => (nomatch hc)⟩
  have hrun : ∀ ch, Lawful ch ch.connections →
      Lawful (events.foldl next ch) (events.foldl next ch).connections := by
    induction events with
    | nil => exact fun ch h => h
    | cons event events ih =>
      intro ch h
      apply ih
      cases event with
      | accept reads writes => exact h.accept reads writes
      | poll d => exact h.poll d
  exact hrun _ hnew

-- ---------------------------------------------------------------------------
-- The order of the answers
-- ---------------------------------------------------------------------------

/-- From `ch` to `ch'` answers are only added, all of them to connections in `admits`, and
so are all the connections that are open and were not before. -/
structure Follows (admits : Nat → Prop) (ch ch' : Channel) : Prop where
  answers : ∃ later, ch'.served = ch.served ++ later ∧ ∀ s ∈ later, admits s.number
  opens : ∀ c ∈ ch'.conns, c.number ∈ ch.conns.map ContentConnection.number ∨ admits c.number
  accepted : ch.accepted ≤ ch'.accepted

namespace Follows

variable {admits : Nat → Prop} {ch ch' ch'' : Channel}

theorem refl (admits : Nat → Prop) (ch : Channel) : Follows admits ch ch where
  answers := ⟨[], (List.append_nil _).symm, fun _ hs => (nomatch hs)⟩
  opens _ hc := .inl (List.mem_map_of_mem hc)
  accepted := Nat.le_refl _

theorem trans (h : Follows admits ch ch') (h' : Follows admits ch' ch'') : Follows admits ch ch'' where
  answers := by
    obtain ⟨later, hlater, hadmits⟩ := h.answers
    obtain ⟨later', hlater', hadmits'⟩ := h'.answers
    refine ⟨later ++ later', by rw [hlater', hlater, List.append_assoc], ?_⟩
    simpa [or_imp, forall_and] using ⟨hadmits, hadmits'⟩
  opens := by
    intro c hc
    rcases h'.opens c hc with hopen | hnew
    · obtain ⟨c', hc', hnumber⟩ := List.mem_map.mp hopen
      rw [← hnumber]
      exact h.opens c' hc'
    · exact .inr hnew
  accepted := Nat.le_trans h.accepted h'.accepted

theorem put {c c' : ContentConnection} (hputs : Puts c ch' c' ch'') (h : Follows admits ch ch')
    (hadmits : admits c'.number) : Follows admits ch ch'' := by
  cases hputs with
  | stays =>
    refine ⟨h.answers, fun c hc => ?_, h.accepted⟩
    rcases List.mem_append.mp hc with hc | hc
    · exact h.opens c hc
    · rw [List.mem_singleton.mp hc]
      exact .inr hadmits
  | closes => exact ⟨h.answers, h.opens, h.accepted⟩

theorem serve (d : Daemon) (ch : Channel) {number : Nat} (hadmits : admits number)
    (request : Option ContentRequest) : Follows admits ch (ch.serve d number request) where
  answers := by
    refine ⟨_, rfl, fun s hs => ?_⟩
    rwa [List.mem_singleton.mp hs]
  opens _ hc := .inl (List.mem_map_of_mem hc)
  accepted := Nat.le_refl _

theorem pollConnection (d : Daemon) (ch : Channel) {c : ContentConnection} (hadmits : admits c.number) :
    Follows admits ch (ch.pollConnection d c) := by
  have hheard : admits c.hear.2.number := by rwa [c.hear_heeds.number]
  cases ch.pollConnection_polled d c with
  | writes _ hputs =>
    refine put hputs (refl admits ch) ?_
    rwa [c.write_writes.number]
  | hears _ _ hputs => exact put hputs (refl admits ch) hheard
  | answers request _ _ hputs =>
    refine put hputs (serve d ch hadmits request) ?_
    rwa [(ContentConnection.write_writes _).number]

/-- A poll answers connections that are open, and opens none. -/
theorem poll (d : Daemon) (ch : Channel) :
    Follows (· ∈ ch.conns.map ContentConnection.number) ch (ch.poll d) := by
  have hstart : Follows (· ∈ ch.conns.map ContentConnection.number) ch { ch with conns := [] } :=
    ⟨⟨[], (List.append_nil _).symm, fun _ hs => (nomatch hs)⟩, fun _ hc => (nomatch hc), Nat.le_refl _⟩
  exact List.foldlRecOn ch.conns (Channel.pollConnection d) hstart
    fun ch' h c hc => h.trans (pollConnection d ch' (List.mem_map_of_mem hc))

end Follows

/-- The connections that may still be answered: those open, and those yet to come. -/
def MayAnswer (ch : Channel) (number : Nat) : Prop :=
  number ∈ ch.conns.map ContentConnection.number ∨ ch.accepted ≤ number

theorem follows_next (ch : Channel) (event : Event) : Follows ch.MayAnswer ch (ch.next event) := by
  cases event with
  | accept reads writes =>
    refine ⟨⟨[], (List.append_nil _).symm, fun _ hs => (nomatch hs)⟩, ?_, Nat.le_succ _⟩
    intro c hc
    rcases List.mem_append.mp hc with hc | hc
    · exact .inl (List.mem_map_of_mem hc)
    · rw [List.mem_singleton.mp hc]
      exact .inr (.inr (Nat.le_refl _))
  | poll d =>
    obtain ⟨⟨later, hlater, hadmits⟩, hopens, haccepted⟩ := Follows.poll d ch
    refine ⟨⟨later, hlater, fun s hs => .inl (hadmits s hs)⟩, fun c hc => ?_, haccepted⟩
    exact .inl ((hopens c hc).elim id id)

theorem follows_run (ch : Channel) (events : List Event) :
    Follows ch.MayAnswer ch (events.foldl next ch) := by
  refine List.foldlRecOn events next (Follows.refl _ ch) fun ch' h event _ => ?_
  obtain ⟨⟨later, hlater, hadmits⟩, hopens, haccepted⟩ := ch'.follows_next event
  have hmay : ∀ n, ch'.MayAnswer n → ch.MayAnswer n := by
    rintro n (hopen | hnew)
    · obtain ⟨c, hc, rfl⟩ := List.mem_map.mp hopen
      exact (h.opens c hc).elim .inl id
    · exact .inr (Nat.le_trans h.accepted hnew)
  refine h.trans ⟨⟨later, hlater, fun s hs => hmay _ (hadmits s hs)⟩, fun c hc => ?_, haccepted⟩
  exact (hopens c hc).imp_right (hmay _)

/-- However the connections come, are cut and are polled, the channel is linearizable: what was
answered is a serial history of the timelines, with one answer for a connection at most; a
connection is sent its answer, and closed just when it was sent all of it or failed; and what is
answered to a connection that is still open comes after what was answered before. -/
theorem content_linearizable (events : List Event) :
    Serial answerTo Table.empty (run events).history (run events).timelines ∧
      ((run events).served.map Reply.number).Nodup ∧
      ((run events).connections.map ContentConnection.number).Nodup ∧
      (∀ c ∈ (run events).connections, Stands (run events).served c) ∧
      (∀ c ∈ (run events).closed, c.failed = false →
        ∃ s ∈ (run events).served, s.number = c.number ∧ c.stream.sent = s.response) ∧
      (∀ c ∈ (run events).conns, c.failed = false ∧ (c.handled = true → c.output ≠ [])) ∧
      ∀ more, ∃ later, (run (events ++ more)).served = (run events).served ++ later ∧
        ∀ s ∈ later, ∀ c ∈ (run events).closed, s.number ≠ c.number := by
  have hlawful := lawful_run events
  have hsettled := settled_run events
  refine ⟨hlawful.serial, hlawful.once, hlawful.numbers, hlawful.stands, ?_, hsettled.conns, ?_⟩
  · intro c hc hfailed
    obtain ⟨hhandled, houtput⟩ := hsettled.closed c hc hfailed
    cases hlawful.stands c (List.mem_append_right _ hc) with
    | unanswered hnot => simp [hhandled] at hnot
    | answered hmem hnumber _ hbytes =>
      rw [houtput, List.append_nil] at hbytes
      exact ⟨_, hmem, hnumber, hbytes⟩
  · intro more
    obtain ⟨later, hlater, hadmits⟩ := (follows_run (run events) more).answers
    refine ⟨later, ?_, fun s hs c hc hnumber => ?_⟩
    · rw [← hlater, run, List.foldl_append]
      rfl
    · rcases hadmits s hs with hopen | hnew
      · obtain ⟨c', hc', hsame⟩ := List.mem_map.mp hopen
        have hnodup := hlawful.numbers
        rw [connections, List.map_append] at hnodup
        refine List.disjoint_of_nodup_append hnodup (List.mem_map_of_mem hc') ?_
        rw [hsame, hnumber]
        exact List.mem_map_of_mem hc
      · have hbelow := hlawful.below c (List.mem_append_right _ hc)
        rw [← hnumber] at hbelow
        exact Nat.not_lt.mpr hnew hbelow

-- ---------------------------------------------------------------------------
-- A request in pieces
-- ---------------------------------------------------------------------------

/-- The payload's length, as the header of a request states it. -/
def promised (bytes : List UInt8) : Nat := Bytes.ofBe (Bytes.part bytes 13 17)

theorem decodeContentRequest_some {bytes : List UInt8} {request : ContentRequest}
    (h : decodeContentRequest bytes = .ok (some request)) :
    17 ≤ bytes.length ∧ bytes.take 4 = contentMagic ∧ promised bytes ≤ contentRequestMax ∧
      bytes.length = 17 + promised bytes := by
  revert h
  rw [decodeContentRequest]
  dsimp only
  split
  case isTrue => simp
  case isFalse hlong =>
    split
    case isTrue => simp
    case isFalse hmagic =>
      split
      case isTrue => simp
      case isFalse hmax =>
        split
        case isTrue => simp
        case isFalse =>
          split
          case isTrue => simp
          case isFalse hlen =>
            intro _
            exact ⟨Nat.not_lt.mp hlong, not_not.mp hmagic, Nat.not_lt.mp hmax, not_not.mp hlen⟩

theorem length_le_of_decode {bytes : List UInt8} {request : ContentRequest}
    (h : decodeContentRequest bytes = .ok (some request)) : bytes.length ≤ contentRequestMax + 17 := by
  obtain ⟨-, -, hmax, hlen⟩ := decodeContentRequest_some h
  rw [hlen, Nat.add_comm]
  exact Nat.add_le_add_right hmax 17

/-- As long as some of a request is missing there is more to come. -/
theorem decodeContentRequest_short {front tail : List UInt8} {request : ContentRequest}
    (h : decodeContentRequest (front ++ tail) = .ok (some request)) (htail : tail ≠ []) :
    decodeContentRequest front = .ok none := by
  obtain ⟨-, hmagic, hmax, hlen⟩ := decodeContentRequest_some h
  rw [decodeContentRequest]
  dsimp only
  by_cases hshort : front.length < 17
  · rw [if_pos hshort]
  · have hseventeen : 17 ≤ front.length := Nat.not_lt.mp hshort
    have htake : (front ++ tail).take 4 = front.take 4 :=
      List.take_append_of_le_length (Nat.le_trans (by simp) hseventeen)
    have hpart : promised (front ++ tail) = promised front := by
      rw [promised, promised, Bytes.part, Bytes.part,
        List.drop_append_of_le_length (Nat.le_trans (by simp) hseventeen),
        List.take_append_of_le_length]
      simpa using Nat.sub_le_sub_right hseventeen 13
    rw [htake] at hmagic
    rw [hpart] at hmax hlen
    have hless : front.length < 17 + promised front := by
      rw [← hlen, List.length_append]
      exact Nat.lt_add_of_pos_right (List.length_pos_iff.mpr htail)
    rw [if_neg hshort, if_neg (not_not_intro hmagic)]
    exact (if_neg (Nat.not_lt.mpr hmax)).trans (if_pos hless)

/-- What a socket reads when the bytes come in turns, each of them in pieces. -/
def script (turns : List (List (List UInt8))) (more : List Read) : List Read :=
  turns.flatMap (fun pieces => pieces.map Read.data ++ [.wouldBlock]) ++ more

/-- The bytes cut into turns and pieces as a socket can cut them; the last turn brings some. -/
structure Cuts (turns : List (List (List UInt8))) (bytes : List UInt8) : Prop where
  joined : turns.flatten.flatten = bytes
  pieces : ∀ piece ∈ turns.flatten, piece ≠ [] ∧ piece.length ≤ contentBufLen
  last : ∃ final, turns.getLast? = some final ∧ final ≠ []

theorem Cuts.tail {turn next : List (List UInt8)} {turns : List (List (List UInt8))} {bytes : List UInt8}
    (h : Cuts (turn :: next :: turns) bytes) : Cuts (next :: turns) (next :: turns).flatten.flatten where
  joined := rfl
  pieces piece hpiece := h.pieces piece (List.mem_append_right _ hpiece)
  last := h.last

theorem Cuts.ne_nil {turns : List (List (List UInt8))} {bytes : List UInt8} (h : Cuts turns bytes) :
    bytes ≠ [] := by
  obtain ⟨final, hfinal, hne⟩ := h.last
  obtain ⟨piece, hpiece⟩ := List.exists_mem_of_ne_nil final hne
  have hmem : piece ∈ turns.flatten :=
    List.mem_flatten.mpr ⟨final, List.mem_of_getLast? hfinal, hpiece⟩
  have hpos := (h.pieces piece hmem).1
  rw [← h.joined]
  simp only [ne_eq, List.flatten_eq_nil_iff, not_forall]
  exact ⟨piece, hmem, hpos⟩

theorem readContent_pieces {pieces : List (List UInt8)}
    (hpieces : ∀ piece ∈ pieces, piece ≠ [] ∧ piece.length ≤ contentBufLen) (reads : List Read)
    {input : List UInt8} (hroom : input.length + pieces.flatten.length ≤ contentRequestMax + 17) :
    readContent (pieces.map Read.data ++ .wouldBlock :: reads) input =
      (.blocked, reads, input ++ pieces.flatten) := by
  induction pieces generalizing input with
  | nil => simp [readContent]
  | cons piece pieces ih =>
    obtain ⟨⟨hne, hlen⟩, hrest⟩ := List.forall_mem_cons.mp hpieces
    have htake : piece.take contentBufLen = piece := List.take_of_length_le hlen
    have hsum : input.length + piece.length + pieces.flatten.length ≤ contentRequestMax + 17 := by
      simpa [Nat.add_assoc] using hroom
    have hfits : ¬ input.length + piece.length > contentRequestMax + 17 :=
      Nat.not_lt.mpr (Nat.le_trans (Nat.le_add_right _ _) hsum)
    have hroom : (input ++ piece).length + pieces.flatten.length ≤ contentRequestMax + 17 := by
      simpa using hsum
    have hnext := ih hrest hroom
    simp [readContent, htake, hne, hfits, hnext]

theorem hear_turn {c : ContentConnection} {turn : List (List UInt8)} {reads : List Read}
    {heard : Option ContentRequest} (hreads : c.stream.reads = turn.map Read.data ++ .wouldBlock :: reads)
    (hpieces : ∀ piece ∈ turn, piece ≠ [] ∧ piece.length ≤ contentBufLen)
    (hroom : c.input.length + turn.flatten.length ≤ contentRequestMax + 17)
    (hdecode : decodeContentRequest (c.input ++ turn.flatten) = .ok heard) :
    c.hear = (if heard.isSome then .asks heard else .waits, c.took reads (c.input ++ turn.flatten)) := by
  rw [ContentConnection.hear, hreads, readContent_pieces hpieces reads hroom]
  dsimp only
  rw [hdecode]
  cases heard with
  | none => rfl
  | some request => rfl

/-- The connection numbered `k` has not been answered, and is to read the turns. -/
structure Waiting (ch : Channel) (k : Nat) (turns : List (List (List UInt8))) (more : List Read)
    (c : ContentConnection) : Prop where
  mem : c ∈ ch.conns
  number : c.number = k
  handled : c.handled = false
  reads : c.stream.reads = script turns more

/-- What is answered to the connection numbered `k`. -/
def answerOf (ch : Channel) (k : Nat) : Option Reply := ch.served.find? fun s => s.number = k

/-- There is no second answer. -/
theorem Lawful.answerOf_eq_some {ch : Channel} {cs : List ContentConnection} {k : Nat} {s : Reply}
    (h : Lawful ch cs) (hs : s ∈ ch.served) (hnumber : s.number = k) : ch.answerOf k = some s := by
  obtain ⟨t, ht⟩ : ∃ t, ch.answerOf k = some t := by
    rw [← Option.isSome_iff_exists, answerOf, List.find?_isSome]
    exact ⟨s, hs, by simpa using hnumber⟩
  have hsame : t.number = s.number := by
    have hfound := List.find?_some ht
    rw [hnumber]
    simpa using hfound
  rw [ht, List.inj_on_of_nodup_map h.once (List.mem_of_find?_eq_some ht) hs hsame]

theorem Follows.answerOf_eq {admits : Nat → Prop} {ch ch' : Channel} {k : Nat}
    (h : Follows admits ch ch') (hk : ¬ admits k) : ch'.answerOf k = ch.answerOf k := by
  obtain ⟨later, hlater, hadmits⟩ := h.answers
  have hnone : later.find? (fun s => s.number = k) = none := by
    rw [List.find?_eq_none]
    intro s hs hnumber
    rw [decide_eq_true_eq] at hnumber
    exact hk (hnumber ▸ hadmits s hs)
  rw [answerOf, hlater, List.find?_append, hnone, Option.or_none]
  rfl

theorem Follows.answerOf_of_some {admits : Nat → Prop} {ch ch' : Channel} {k : Nat} {s : Reply}
    (h : Follows admits ch ch') (hs : ch.answerOf k = some s) : ch'.answerOf k = some s := by
  obtain ⟨later, hlater, -⟩ := h.answers
  rw [answerOf] at hs ⊢
  rw [hlater, List.find?_append, hs, Option.some_or]

theorem Puts.conns_subset {ch' ch'' : Channel} {c c' : ContentConnection} (hputs : Puts c ch' c' ch'') :
    ch'.conns ⊆ ch''.conns := by
  cases hputs with
  | stays => exact List.subset_append_left _ _
  | closes => exact List.Subset.refl _

theorem conns_subset_pollConnection (d : Daemon) (ch : Channel) (c : ContentConnection) :
    ch.conns ⊆ (ch.pollConnection d c).conns := by
  cases ch.pollConnection_polled d c with
  | writes _ hputs => exact hputs.conns_subset
  | hears _ _ hputs => exact hputs.conns_subset
  | answers _ _ _ hputs => exact hputs.conns_subset

theorem foldl_pollConnection_others {todo : List ContentConnection} {k : Nat}
    (hothers : k ∉ todo.map ContentConnection.number) (d : Daemon) (ch : Channel) :
    ch.conns ⊆ (todo.foldl (pollConnection d) ch).conns ∧
      (todo.foldl (pollConnection d) ch).answerOf k = ch.answerOf k := by
  refine List.foldlRecOn todo (pollConnection d) (motive := fun ch' =>
    ch.conns ⊆ ch'.conns ∧ ch'.answerOf k = ch.answerOf k) ⟨List.Subset.refl _, rfl⟩ ?_
  rintro ch' ⟨hsubset, hanswer⟩ c hc
  refine ⟨List.Subset.trans hsubset (conns_subset_pollConnection d ch' c), ?_⟩
  have hfollows : Follows (· = c.number) ch' (ch'.pollConnection d c) := .pollConnection d ch' rfl
  rw [hfollows.answerOf_eq, hanswer]
  rintro rfl
  exact hothers (List.mem_map_of_mem hc)

/-- A poll sees each connection once, and what comes before and after does not concern it. -/
theorem poll_split {ch : Channel} (h : Lawful ch ch.connections) {c : ContentConnection}
    (hc : c ∈ ch.conns) (d : Daemon) :
    ∃ ch' : Channel, ch'.answerOf c.number = ch.answerOf c.number ∧
      (ch'.pollConnection d c).conns ⊆ (ch.poll d).conns ∧
      (ch.poll d).answerOf c.number = (ch'.pollConnection d c).answerOf c.number := by
  obtain ⟨before, after, hsplit⟩ := List.append_of_mem hc
  have hnodup := h.numbers
  rw [connections, hsplit, List.map_append, List.map_append, List.map_cons] at hnodup
  have hall := (List.nodup_append.mp hnodup).1
  have hbefore : c.number ∉ before.map ContentConnection.number := fun hmem =>
    (List.disjoint_of_nodup_append hall) hmem List.mem_cons_self
  have hafter : c.number ∉ after.map ContentConnection.number :=
    (List.nodup_cons.mp (List.nodup_append.mp hall).2.1).1
  have hfirst := foldl_pollConnection_others hbefore d { ch with conns := [] }
  have hlast := foldl_pollConnection_others hafter d
    ((before.foldl (pollConnection d) { ch with conns := [] }).pollConnection d c)
  have hpoll : ch.poll d = after.foldl (pollConnection d)
      ((before.foldl (pollConnection d) { ch with conns := [] }).pollConnection d c) := by
    rw [poll, hsplit, List.foldl_append, List.foldl_cons]
  rw [hpoll]
  exact ⟨_, hfirst.2, hlast.1, hlast.2⟩

/-- The poll that a waiting connection is in, when its turn does not overrun the input. -/
theorem Waiting.hear_eq {ch : Channel} {k : Nat} {turn : List (List UInt8)}
    {turns : List (List (List UInt8))} {more : List Read} {c : ContentConnection}
    {request : ContentRequest} {heard : Option ContentRequest} {rest : List UInt8}
    (h : Waiting ch k (turn :: turns) more c)
    (hpieces : ∀ piece ∈ turn, piece ≠ [] ∧ piece.length ≤ contentBufLen)
    (hwhole : decodeContentRequest (c.input ++ turn.flatten ++ rest) = .ok (some request))
    (hdecode : decodeContentRequest (c.input ++ turn.flatten) = .ok heard) :
    c.hear = (if heard.isSome then .asks heard else .waits,
      c.took (script turns more) (c.input ++ turn.flatten)) := by
  have hroom : c.input.length + turn.flatten.length ≤ contentRequestMax + 17 := by
    have hlen := length_le_of_decode hwhole
    rw [List.length_append, List.length_append] at hlen
    exact Nat.le_trans (Nat.le_add_right _ _) hlen
  exact hear_turn (by simpa [script] using h.reads) hpieces hroom hdecode

theorem Waiting.answerOf_eq_none {ch : Channel} {k : Nat} {turns : List (List (List UInt8))}
    {more : List Read} {c : ContentConnection} (h : Waiting ch k turns more c)
    (hlawful : Lawful ch ch.connections) : ch.answerOf k = none := by
  cases hlawful.stands c (List.mem_append_left _ h.mem) with
  | unanswered _ _ _ hnone =>
    rw [answerOf, List.find?_eq_none]
    intro s hs
    rw [decide_eq_true_eq, ← h.number]
    exact hnone s hs
  | answered _ _ hdone => simp [h.handled] at hdone

theorem Waiting.poll_more {ch : Channel} {k : Nat} {turn next : List (List UInt8)}
    {turns : List (List (List UInt8))} {more : List Read} {c : ContentConnection}
    {request : ContentRequest} (h : Waiting ch k (turn :: next :: turns) more c)
    (hlawful : Lawful ch ch.connections) (d : Daemon)
    (hcuts : Cuts (turn :: next :: turns) (turn :: next :: turns).flatten.flatten)
    (hdecode : decodeContentRequest (c.input ++ turn.flatten ++ (next :: turns).flatten.flatten) =
      .ok (some request)) :
    Waiting (ch.poll d) k (next :: turns) more
      (c.took (script (next :: turns) more) (c.input ++ turn.flatten)) := by
  have hhear := h.hear_eq (fun piece hpiece => hcuts.pieces piece (List.mem_append_left _ hpiece))
    hdecode (decodeContentRequest_short hdecode hcuts.tail.ne_nil)
  obtain ⟨ch', -, hconns, -⟩ := poll_split hlawful h.mem d
  refine ⟨hconns ?_, h.number, h.handled, rfl⟩
  rw [pollConnection, if_neg (by simp [h.handled]), hhear]
  exact List.mem_append_right _ List.mem_cons_self

theorem Waiting.poll_last {ch : Channel} {k : Nat} {turn : List (List UInt8)} {more : List Read}
    {c : ContentConnection} {request : ContentRequest} (h : Waiting ch k [turn] more c)
    (hlawful : Lawful ch ch.connections) (d : Daemon)
    (hpieces : ∀ piece ∈ turn, piece ≠ [] ∧ piece.length ≤ contentBufLen)
    (hdecode : decodeContentRequest (c.input ++ turn.flatten) = .ok (some request)) :
    ∃ response, (ch.poll d).answerOf k = some ⟨k, d, some request, response⟩ := by
  have hwhole : decodeContentRequest (c.input ++ turn.flatten ++ []) = .ok (some request) := by
    rwa [List.append_nil]
  have hhear := h.hear_eq hpieces hwhole hdecode
  have hnone := h.answerOf_eq_none hlawful
  obtain ⟨ch', hbefore, -, hafter⟩ := poll_split hlawful h.mem d
  rw [h.number] at hbefore hafter
  have hanswers : ch'.pollConnection d c =
      (ch'.serve d k (some request)).writeTo
        ((c.took (script [] more) (c.input ++ turn.flatten)).answer
          (answerTo ch'.timelines (d, some request)).1) := by
    rw [pollConnection, if_neg (by simp [h.handled]), hhear]
    simp [ContentConnection.took, h.number]
  rw [hafter, hanswers]
  have hserved : ∀ (ch'' : Channel) (c' : ContentConnection), (ch''.writeTo c').served = ch''.served := by
    intro ch'' c'
    rw [writeTo]
    rcases c'.write with ⟨_ | _, c''⟩
    · rfl
    · rfl
  rw [hnone] at hbefore
  rw [answerOf] at hbefore
  refine ⟨(answerTo ch'.timelines (d, some request)).1, ?_⟩
  rw [answerOf, hserved, Channel.serve, List.find?_append, hbefore]
  simp

def polls (events : List Event) : List Daemon :=
  events.filterMap fun event =>
    match event with
    | .accept _ _ => none
    | .poll d => some d

/-- A connection that waits is answered at the poll that brings its last turn. -/
theorem Waiting.run {ch : Channel} {k : Nat} {turns : List (List (List UInt8))} {more : List Read}
    {c : ContentConnection} {request : ContentRequest} (h : Waiting ch k turns more c)
    (hlawful : Lawful ch ch.connections) (hcuts : Cuts turns turns.flatten.flatten)
    (hdecode : decodeContentRequest (c.input ++ turns.flatten.flatten) = .ok (some request))
    (events : List Event) :
    ((events.foldl next ch).answerOf k).map (fun s => (s.daemon, s.request)) =
      ((polls events)[turns.length - 1]?).map fun d => (d, some request) := by
  induction events generalizing ch turns c with
  | nil => simp [h.answerOf_eq_none hlawful, polls]
  | cons event events ih =>
    cases event with
    | accept reads writes =>
      have hmem : c ∈ (ch.accept reads writes).conns := List.mem_append_left _ h.mem
      exact ih ⟨hmem, h.number, h.handled, h.reads⟩ (hlawful.accept reads writes) hcuts hdecode
    | poll d =>
      cases turns with
      | nil =>
        obtain ⟨final, hfinal, -⟩ := hcuts.last
        cases hfinal
      | cons turn turns =>
        cases turns with
        | nil =>
          obtain ⟨response, hanswer⟩ := h.poll_last hlawful d
            (fun piece hpiece => hcuts.pieces piece (by simpa using hpiece)) (by simpa using hdecode)
          have hkept := (follows_run (ch.poll d) events).answerOf_of_some hanswer
          rw [List.foldl_cons]
          simp [next, hkept, polls]
        | cons next turns =>
          have hbytes : decodeContentRequest
              (c.input ++ turn.flatten ++ (next :: turns).flatten.flatten) = .ok (some request) := by
            simpa using hdecode
          exact ih (h.poll_more hlawful d hcuts hbytes) (hlawful.poll d) hcuts.tail hbytes

/-- Before that poll the connection is open and waits. -/
theorem Waiting.run_open {ch : Channel} {k : Nat} {turns : List (List (List UInt8))} {more : List Read}
    {c : ContentConnection} {request : ContentRequest} (h : Waiting ch k turns more c)
    (hlawful : Lawful ch ch.connections) (hcuts : Cuts turns turns.flatten.flatten)
    (hdecode : decodeContentRequest (c.input ++ turns.flatten.flatten) = .ok (some request))
    {events : List Event} (hearly : (polls events).length < turns.length) :
    ∃ c' ∈ (events.foldl next ch).conns, c'.number = k ∧ c'.handled = false := by
  induction events generalizing ch turns c with
  | nil => exact ⟨c, h.mem, h.number, h.handled⟩
  | cons event events ih =>
    cases event with
    | accept reads writes =>
      have hmem : c ∈ (ch.accept reads writes).conns := List.mem_append_left _ h.mem
      exact ih ⟨hmem, h.number, h.handled, h.reads⟩ (hlawful.accept reads writes) hcuts hdecode hearly
    | poll d =>
      rcases turns with _ | ⟨turn, _ | ⟨next, turns⟩⟩
      · cases hearly
      · simp [polls] at hearly
      · have hbytes : decodeContentRequest
            (c.input ++ turn.flatten ++ (next :: turns).flatten.flatten) = .ok (some request) := by
          simpa using hdecode
        have hlater : (polls events).length < (next :: turns).length := by
          simpa [polls] using hearly
        exact ih (h.poll_more hlawful d hcuts hbytes) (hlawful.poll d) hcuts.tail hbytes hlater

/-- However its bytes are cut and whatever the other connections do, a request is answered just
once: by the poll that reads its last piece, as the daemon stands then, and until then the
connection is open. -/
theorem request_answered_once {bytes : List UInt8} {request : ContentRequest}
    (hdecode : decodeContentRequest bytes = .ok (some request)) {turns : List (List (List UInt8))}
    (hcuts : Cuts turns bytes) (more : List Read) (writes : List Write) (before after : List Event) :
    let ch := run (before ++ .accept (script turns more) writes :: after)
    let k := (run before).accepted
    (ch.answerOf k).map (fun s => (s.daemon, s.request)) =
        ((polls after)[turns.length - 1]?).map (fun d => (d, some request)) ∧
      (∀ s ∈ ch.served, s.number = k → ch.answerOf k = some s) ∧
      ((polls after).length < turns.length → ∃ c ∈ ch.conns, c.number = k ∧ c.handled = false) := by
  intro ch k
  have hjoined := hcuts.joined
  subst hjoined
  have hlawful := (lawful_run before).accept (script turns more) writes
  have hwaiting : Waiting ((run before).accept (script turns more) writes) k turns more
      (.new (script turns more) writes k) :=
    ⟨List.mem_append_right _ List.mem_cons_self, rfl, rfl, rfl⟩
  have hrun : ch = after.foldl next ((run before).accept (script turns more) writes) := by
    simp only [ch, run, List.foldl_append, List.foldl_cons]
    rfl
  refine ⟨?_, fun s hs hnumber => (lawful_run _).answerOf_eq_some hs hnumber, ?_⟩
  · rw [hrun]
    exact hwaiting.run hlawful hcuts hdecode after
  · rw [hrun]
    exact hwaiting.run_open hlawful hcuts hdecode

/-- A question for what the default leaf has, read in two turns. -/
theorem question_answered_once : ∃ d : Daemon,
    let ch := run [.accept (script [[[0x52, 0x4c]], [[0x43, 0x31, 1], List.replicate 12 0]] []) [],
      .poll d, .poll d]
    (ch.answerOf 0).map (fun s => (s.daemon, s.request)) = some (d, some ⟨1, 0, []⟩) ∧
      ∀ s ∈ ch.served, s.number = 0 → ch.answerOf 0 = some s := by
  obtain ⟨d, -⟩ : ∃ d, Daemon.bind (.spawn ⟨1, 1, 0, 0⟩ []) ⟨1, 1, 0, 0⟩ true = .ok d := ⟨_, rfl⟩
  have hdecode : decodeContentRequest ([0x52, 0x4c, 0x43, 0x31, 1] ++ List.replicate 12 0) =
      .ok (some ⟨1, 0, []⟩) := rfl
  have hcuts : Cuts [[[0x52, 0x4c]], [[0x43, 0x31, 1], List.replicate 12 0]]
      ([0x52, 0x4c, 0x43, 0x31, 1] ++ List.replicate 12 0) :=
    ⟨rfl, by simp [contentBufLen], _, rfl, by simp⟩
  obtain ⟨hanswer, honce, -⟩ := request_answered_once hdecode hcuts [] [] [] [.poll d, .poll d]
  exact ⟨d, hanswer, honce⟩

end Channel

end Rill.Daemon
