import Rill.Vt.Bounds
import Rill.Vt.Csi
import Rill.Vt.Damage

/-!
# Replies

The host is answered with whole replies, in the order of what it asked. A reply that does
not fit whole is dropped and counted.
-/

namespace Rill.Vt

-- ---------------------------------------------------------------------------
-- Numerals
-- ---------------------------------------------------------------------------

def numeral (n : Nat) : List UInt8 := (Nat.toDigits 10 n).map fun c => c.val.toUInt8

theorem digitChar_byte : ∀ d < 10, (Nat.digitChar d).val.toUInt8 = UInt8.ofNat (0x30 + d) := by decide

theorem digit_value : ∀ d < 10, isDigit (UInt8.ofNat (0x30 + d)) = true ∧
    (UInt8.ofNat (0x30 + d) - 0x30).toNat = d := by decide

theorem numeral_of_lt {n : Nat} (h : n < 10) : numeral n = [UInt8.ofNat (0x30 + n)] := by
  rw [numeral, Nat.toDigits_of_lt_base h, List.map_singleton, digitChar_byte n h]

theorem numeral_of_le {n : Nat} (h : 10 ≤ n) :
    numeral n = numeral (n / 10) ++ [UInt8.ofNat (0x30 + n % 10)] := by
  rw [numeral, Nat.toDigits_of_base_le (by decide) h, List.map_append, List.map_singleton,
    digitChar_byte _ (Nat.mod_lt _ (by decide))]
  rfl

/-- A numeral is digits that read as its number. -/
theorem numeral_reads (n : Nat) : (∀ b ∈ numeral n, isDigit b) ∧ decimal (numeral n) = n := by
  induction n using Nat.strongRecOn with
  | ind n ih =>
    have hmod : n % 10 < 10 := Nat.mod_lt _ (by decide)
    obtain ⟨hdigit, hvalue⟩ := digit_value _ hmod
    rcases Nat.lt_or_ge n 10 with hlt | hge
    · rw [Nat.mod_eq_of_lt hlt] at hdigit hvalue
      rw [numeral_of_lt hlt]
      refine ⟨List.forall_mem_singleton.mpr hdigit, ?_⟩
      exact (Nat.zero_add _).trans hvalue
    · obtain ⟨hall, hreads⟩ := ih (n / 10) (by omega)
      rw [numeral_of_le hge]
      refine ⟨List.forall_mem_append.mpr ⟨hall, List.forall_mem_singleton.mpr hdigit⟩, ?_⟩
      rw [decimal_concat, hreads, hvalue]
      omega

theorem writeU16_go_eq {fuel n : Nat} (h : n < 10 ^ (fuel + 1)) : writeU16.go (fuel + 1) n = numeral n := by
  induction fuel generalizing n with
  | zero =>
    have hlt : n < 10 := by simpa using h
    rw [numeral_of_lt hlt, writeU16.go, if_pos (by omega), Nat.mod_eq_of_lt hlt]
  | succ fuel ih =>
    unfold writeU16.go
    dsimp only
    rcases Nat.lt_or_ge n 10 with hlt | hge
    · rw [numeral_of_lt hlt, if_pos (by omega), Nat.mod_eq_of_lt hlt]
    · rw [Nat.pow_succ] at h
      rw [if_neg (by omega), ih (by omega), numeral_of_le hge]

theorem writeU16_eq (n : UInt16) : writeU16 n = numeral n.toNat := by
  have hn := n.toNat_lt
  exact writeU16_go_eq (by omega)

theorem length_numeral_le {n : Nat} (h : n ≤ 65535) : (numeral n).length ≤ 5 := by
  rw [numeral, List.length_map, Nat.length_toDigits_le_iff (by decide) (by decide)]
  omega

-- ---------------------------------------------------------------------------
-- The scratch buffers
-- ---------------------------------------------------------------------------

/-- Bytes written one after the other into a buffer, which panics past its end. -/
def writeBytes (cap : Nat) (buf bytes : List UInt8) : Option (List UInt8) :=
  bytes.foldlM (fun buf b => if buf.length < cap then some (buf ++ [b]) else none) buf

/-- The digits that `write_u16` collects, the last digit first, in what room there is. -/
def collectDigits : Nat → Nat → Option (List UInt8)
  | 0, _ => none
  | room + 1, x => do
    let rest ← if x / 10 = 0 then some [] else collectDigits room (x / 10)
    some (UInt8.ofNat (0x30 + x % 10) :: rest)

/-- `write_u16` through its 5 bytes, into a buffer. -/
def writeU16Into (cap : Nat) (buf : List UInt8) (n : UInt16) : Option (List UInt8) := do
  let digits ← collectDigits 5 n.toNat
  writeBytes cap buf digits.reverse

/-- The report as `reply_dsr_cursor` puts it together in its 16 bytes. -/
def scratchDsrCursor (row col : UInt16) : Option (List UInt8) := do
  let buf ← writeBytes 16 [] [0x1b, 0x5b]
  let buf ← writeU16Into 16 buf (satAdd16 row 1)
  let buf ← writeBytes 16 buf [0x3b]
  let buf ← writeU16Into 16 buf (satAdd16 col 1)
  writeBytes 16 buf [0x52]

theorem writeBytes_of_le {cap : Nat} {buf bytes : List UInt8} (h : buf.length + bytes.length ≤ cap) :
    writeBytes cap buf bytes = some (buf ++ bytes) := by
  induction bytes generalizing buf with
  | nil => rw [List.append_nil]; rfl
  | cons b bytes ih =>
    rw [List.length_cons] at h
    have hrest := @ih (buf ++ [b]) (by rw [List.length_append, List.length_singleton]; omega)
    rw [List.append_assoc, List.singleton_append] at hrest
    rw [writeBytes, List.foldlM_cons, if_pos (by omega)]
    exact hrest

theorem collectDigits_eq {room n : Nat} (h : n < 10 ^ (room + 1)) :
    collectDigits (room + 1) n = some (numeral n).reverse := by
  induction room generalizing n with
  | zero =>
    have hlt : n < 10 := by simpa using h
    rw [numeral_of_lt hlt, collectDigits, if_pos (by omega), Nat.mod_eq_of_lt hlt]
    rfl
  | succ room ih =>
    rw [collectDigits]
    rcases Nat.lt_or_ge n 10 with hlt | hge
    · rw [numeral_of_lt hlt, if_pos (by omega), Nat.mod_eq_of_lt hlt]
      rfl
    · rw [Nat.pow_succ] at h
      rw [if_neg (by omega), ih (by omega), numeral_of_le hge, List.reverse_append]
      rfl

theorem writeU16Into_of_le {cap : Nat} {buf : List UInt8} {n : UInt16} (h : buf.length + 5 ≤ cap) :
    writeU16Into cap buf n = some (buf ++ numeral n.toNat) := by
  have hn := n.toNat_lt
  have hlen := length_numeral_le (n := n.toNat) (by omega)
  rw [writeU16Into, collectDigits_eq (by omega)]
  change writeBytes cap buf (numeral n.toNat).reverse.reverse = _
  rw [List.reverse_reverse, writeBytes_of_le (by omega)]

/-- The report fits its scratch buffer, whatever the cursor. -/
theorem scratchDsrCursor_eq (row col : UInt16) : scratchDsrCursor row col =
    some ([0x1b, 0x5b] ++ numeral (satAdd16 row 1).toNat ++ [0x3b] ++
      numeral (satAdd16 col 1).toNat ++ [0x52]) := by
  have hrow := (satAdd16 row 1).toNat_lt
  have hcol := (satAdd16 col 1).toNat_lt
  have hrow := length_numeral_le (n := (satAdd16 row 1).toNat) (by omega)
  have hcol := length_numeral_le (n := (satAdd16 col 1).toNat) (by omega)
  unfold scratchDsrCursor
  rw [writeBytes_of_le (by decide)]
  dsimp only [Option.bind_eq_bind, Option.bind_some]
  rw [writeU16Into_of_le (by simp), Option.bind_some, writeBytes_of_le (by simp; omega),
    Option.bind_some, writeU16Into_of_le (by simp; omega), Option.bind_some,
    writeBytes_of_le (by simp; omega)]
  rfl

-- ---------------------------------------------------------------------------
-- Queries
-- ---------------------------------------------------------------------------

/-- What the stream asks of the terminal; a cursor query with the cursor it asks for. -/
inductive Query
  | primaryDa
  | secondaryDa
  | status
  | cursor (row col : UInt16)
  deriving DecidableEq

/-- The whole reply to a query, with positions counted from one. -/
def Query.reply : Query → List UInt8
  | .primaryDa => [0x1b, 0x5b, 0x3f, 0x36, 0x63]
  | .secondaryDa => [0x1b, 0x5b, 0x3e, 0x30, 0x3b, 0x30, 0x3b, 0x30, 0x63]
  | .status => [0x1b, 0x5b, 0x30, 0x6e]
  | .cursor row col =>
    [0x1b, 0x5b] ++ numeral (row.toNat + 1) ++ [0x3b] ++ numeral (col.toNat + 1) ++ [0x52]

/-- The query that an action is, on the screen it is made on. -/
def Action.query (s : Screen) : Action → Option Query
  | .csi params intermediates ignore action =>
    if ignore then none
    else if intermediates = [0x3e] ∧ action = 'c' then some .secondaryDa
    else if intermediates ≠ [] then none
    else if action = 'c' ∧ params.head?.getD 0 = 0 then some .primaryDa
    else if action = 'n' ∧ params.head? = some 6 then some (.cursor s.cursorRow s.cursorCol)
    else if action = 'n' ∧ params.head? = some 5 then some .status
    else none
  | _ => none

namespace Screen

/-- The side of a screen that queries are answered on. -/
def mail (s : Screen) : List UInt8 × UInt32 × Bool := (s.replies, s.repliesDropped, s.discardReplies)

variable {s t : Screen}

theorem Draws.mail (h : Draws s t) : t.mail = s.mail := h.congr Screen.mail fun _ _ => rfl

theorem Pens.mail (h : Pens s t) : t.mail = s.mail := by rw [← h]; rfl

theorem mail_ite {c : Prop} [Decidable c] {t u : Screen} (ht : t.mail = s.mail) (hu : u.mail = s.mail) :
    (if c then t else u).mail = s.mail := by
  split
  · exact ht
  · exact hu

theorem mail_enterAlt (s : Screen) (saves clear : Bool) : (s.enterAlt saves clear).mail = s.mail := by
  have hsaved : (if !s.inAlt then s.saveGrid saves else s).mail = s.mail := mail_ite rfl rfl
  exact (mail_ite (s := if !s.inAlt then s.saveGrid saves else s) (t := clearGrid _) rfl rfl).trans hsaved

theorem mail_leaveAlt (s : Screen) (restores : Bool) : (s.leaveAlt restores).mail = s.mail := by
  have hgrid : s.restoreGrid.mail = s.mail := by
    unfold Screen.restoreGrid
    cases s.savedGrid <;> rfl
  have hcursor : (s.restoreGrid.takeAltCursor restores).mail = s.restoreGrid.mail := by
    unfold Screen.takeAltCursor
    split <;> rfl
  exact mail_ite rfl (hcursor.trans hgrid)

theorem mail_privateModeOne (s : Screen) (set : Bool) (p : UInt16) :
    (s.privateModeOne set p).mail = s.mail := by
  have halt (saves : Bool) : (if set then s.enterAlt saves true else s.leaveAlt saves).mail = s.mail :=
    mail_ite (mail_enterAlt s saves true) (mail_leaveAlt s saves)
  unfold Screen.privateModeOne
  iterate 9 refine mail_ite rfl ?_
  exact mail_ite (halt false) (mail_ite (halt true) rfl)

theorem mail_privateMode (s : Screen) (params : List UInt16) (set : Bool) :
    (s.privateMode params set).mail = s.mail :=
  List.foldlRecOn (motive := fun (t : Screen) => t.mail = s.mail) params _ rfl
    fun t h p _ => (mail_privateModeOne t set p).trans h

theorem mail_esc (s : Screen) (intermediates : List UInt8) (byte : UInt8) :
    (s.esc intermediates byte).mail = s.mail := by
  have hwrap := (Draws.refl s).clearPendingWrap
  refine mail_ite rfl (mail_ite ?_ (mail_ite hwrap.index.mail ?_))
  · cases s.savedCursor <;> rfl
  refine mail_ite (hwrap.setCursorCol 0).index.mail (mail_ite hwrap.reverseIndex.mail ?_)
  exact mail_ite rfl (mail_ite rfl rfl)

theorem mail_csiDispatch {params : List UInt16} {action : Char}
    (h : (Action.csi params [] false action).query s = none) :
    (s.csiDispatch params action).mail = s.mail := by
  have hdraws := Draws.refl s
  unfold Screen.csiDispatch
  simp only
  split
  case h_1 | h_2 | h_3 | h_4 | h_5 | h_6 | h_7 | h_8 | h_9 | h_10 =>
    exact (hdraws.setCursor _ _).mail
  case h_11 => exact (hdraws.eraseDisplay _).mail
  case h_12 => exact (hdraws.eraseLine _).mail
  case h_13 => exact (hdraws.eraseSpan _ _).mail
  case h_14 => exact (hdraws.insertLines _).mail
  case h_15 => exact (hdraws.deleteLines _).mail
  case h_16 => exact (hdraws.insertCells _).mail
  case h_17 => exact (hdraws.deleteCells _).mail
  case h_18 => exact mail_ite rfl rfl
  case h_19 => exact (hdraws.iterate (fun _ h => h.scrollUp) _).mail
  case h_20 => exact (hdraws.iterate (fun _ h => h.scrollDown) _).mail
  case h_21 => exact (Pens.sgrLoop s _).mail
  case h_22 =>
    refine congrArg Screen.mail (if_neg fun hzero => ?_)
    simp [Action.query, hzero] at h
  case h_23 =>
    have hcursor : ¬ params.head? = some 6 := fun hsix => by simp [Action.query, hsix] at h
    have hstatus : ¬ params.head? = some 5 := fun hfive => by simp [Action.query, hfive] at h
    rw [if_neg hcursor, if_neg hstatus]
  case h_24 => rfl

/-- An action that asks nothing leaves what is answered alone. -/
theorem mail_act {a : Action} (h : a.query s = none) : (s.act a).mail = s.mail := by
  cases a with
  | print c => exact ((Draws.refl s).writeChar c).mail
  | execute b => exact ((Draws.refl s).execute b).mail
  | osc payload => rfl
  | esc intermediates b => exact mail_esc s intermediates b
  | csi params intermediates ignore action =>
    cases ignore with
    | true => rfl
    | false =>
      dsimp only [Screen.act]
      unfold Screen.csi
      rw [if_neg Bool.false_ne_true]
      split
      case isTrue => exact mail_privateMode s params _
      case isFalse =>
        split
        case isTrue hsecondary =>
          rw [Bool.and_eq_true, decide_eq_true_eq, decide_eq_true_eq] at hsecondary
          simp [Action.query, hsecondary] at h
        case isFalse =>
          split
          case isTrue => rfl
          case isFalse hplain =>
            obtain rfl : intermediates = [] := by simpa using hplain
            exact mail_csiDispatch h

theorem reply_cursor {strict : Prop} {cols rows : Nat} (hs : Sound strict cols rows s) :
    [0x1b, 0x5b] ++ numeral (satAdd16 s.cursorRow 1).toNat ++ [0x3b] ++
        numeral (satAdd16 s.cursorCol 1).toNat ++ [0x52] =
      (Query.cursor s.cursorRow s.cursorCol).reply := by
  have hrow : s.cursorRow.toNat < s.rows.toNat := hs.rows_eq ▸ hs.cursorRow_lt
  have hcol : s.cursorCol.toNat < s.cols.toNat := hs.cols_eq ▸ hs.cursorCol_lt
  rw [toNat_satAdd16_one hrow, toNat_satAdd16_one hcol]
  rfl

/-- A query is answered with its reply. -/
theorem act_query {strict : Prop} {cols rows : Nat} (hs : Sound strict cols rows s) {a : Action}
    {q : Query} (h : a.query s = some q) : s.act a = s.enqueueReply q.reply := by
  cases a with
  | print | execute | osc | esc => cases h
  | csi params intermediates ignore action =>
    dsimp only [Action.query] at h
    split at h
    case isTrue => cases h
    case isFalse hignore =>
      obtain rfl : ignore = false := by simpa using hignore
      split at h
      case isTrue hsecondary =>
        obtain ⟨rfl, rfl⟩ := hsecondary
        obtain rfl := Option.some.inj h
        rfl
      case isFalse =>
        split at h
        case isTrue => cases h
        case isFalse hplain =>
          obtain rfl : intermediates = [] := by simpa using hplain
          split at h
          case isTrue hprimary =>
            obtain ⟨rfl, hzero⟩ := hprimary
            obtain rfl := Option.some.inj h
            exact if_pos hzero
          case isFalse =>
            split at h
            case isTrue hcursor =>
              obtain ⟨rfl, hsix⟩ := hcursor
              obtain rfl := Option.some.inj h
              rw [← reply_cursor hs, ← writeU16_eq, ← writeU16_eq]
              exact if_pos hsix
            case isFalse =>
              split at h
              case isTrue hstatus =>
                obtain ⟨rfl, hfive⟩ := hstatus
                obtain rfl := Option.some.inj h
                have hsix : ¬ params.head? = some 6 := by simp [hfive]
                exact (if_neg hsix).trans (if_pos hfive)
              case isFalse => cases h

theorem enqueueReply_fits {bytes : List UInt8} (hkeeps : s.discardReplies = false)
    (h : s.replies.length + bytes.length ≤ 1024) :
    s.enqueueReply bytes = { s with replies := s.replies ++ bytes } := by
  rw [enqueueReply, if_neg (by simp [hkeeps])]
  exact if_neg (Nat.not_lt.mpr h)

theorem enqueueReply_full {bytes : List UInt8} (hkeeps : s.discardReplies = false)
    (h : ¬ s.replies.length + bytes.length ≤ 1024) :
    s.enqueueReply bytes = { s with repliesDropped := satAdd32 s.repliesDropped 1 } := by
  rw [enqueueReply, if_neg (by simp [hkeeps])]
  exact if_pos (Nat.not_le.mp h)

theorem cursor_of_query {a : Action} (h : a.query s = some (.cursor row col)) :
    row = s.cursorRow ∧ col = s.cursorCol := by
  cases a with
  | print | execute | osc | esc => cases h
  | csi params intermediates ignore action =>
    dsimp only [Action.query] at h
    grind

end Screen

-- ---------------------------------------------------------------------------
-- Runs
-- ---------------------------------------------------------------------------

structure Asked where
  query : Query
  fits : Bool

def replied (asked : List Asked) : List UInt8 := (asked.filter Asked.fits).flatMap fun a => a.query.reply

def refused (asked : List Asked) : Nat := asked.countP fun a => !a.fits

/-- A cursor report with a position counted from one. -/
def Reports (bytes : List UInt8) (row col : Nat) : Prop :=
  ∃ rs cs, bytes = [0x1b, 0x5b] ++ rs ++ [0x3b] ++ cs ++ [0x52] ∧
    (∀ b ∈ rs, isDigit b) ∧ decimal rs = row ∧ (∀ b ∈ cs, isDigit b) ∧ decimal cs = col

theorem reports_cursor (row col : UInt16) :
    Reports (Query.cursor row col).reply (row.toNat + 1) (col.toNat + 1) := by
  obtain ⟨hrow, hreadRow⟩ := numeral_reads (row.toNat + 1)
  obtain ⟨hcol, hreadCol⟩ := numeral_reads (col.toNat + 1)
  exact ⟨_, _, rfl, hrow, hreadRow, hcol, hreadCol⟩

namespace Screen

def askedOne (s : Screen) (a : Action) : List Asked :=
  ((a.query s).map fun q => ⟨q, s.replies.length + q.reply.length ≤ 1024⟩).toList

/-- The queries of a list of actions, each made of the screen it comes to. -/
def asked (s : Screen) : List Action → List Asked
  | [] => []
  | a :: l => s.askedOne a ++ asked (s.act a) l

/-- The account of the replies: taken or still there, and no more than fits. -/
structure Settled (cols rows : Nat) (taken : List UInt8) (asked : List Asked) (s : Screen) : Prop where
  whole : Whole cols rows s
  keeps : s.discardReplies = false
  replied : taken ++ s.replies = replied asked
  room : s.replies.length ≤ 1024
  dropped : s.repliesDropped.toNat = min (refused asked) (2 ^ 32 - 1)
  cursor_lt : ∀ a ∈ asked, ∀ row col, a.query = .cursor row col → row.toNat < rows ∧ col.toNat < cols

theorem replied_concat (before : List Asked) (a : Asked) :
    Vt.replied (before ++ [a]) = Vt.replied before ++ if a.fits then a.query.reply else [] := by
  rw [Vt.replied, List.filter_append, List.flatMap_append]
  obtain ⟨q, fits⟩ := a
  cases fits with
  | false => rfl
  | true => exact congrArg _ (List.append_nil _)

theorem refused_concat (before : List Asked) (a : Asked) :
    refused (before ++ [a]) = refused before + if a.fits then 0 else 1 := by
  rw [refused, List.countP_append]
  obtain ⟨q, fits⟩ := a
  cases fits <;> rfl

namespace Settled

variable {cols rows : Nat} {taken : List UInt8} {before : List Asked} {s t : Screen}

theorem quiet (h : Settled cols rows taken before s) (ht : Whole cols rows t) (hmail : t.mail = s.mail) :
    Settled cols rows taken before t := by
  obtain ⟨hreplies, hrest⟩ := Prod.mk.inj hmail
  obtain ⟨hdropped, hdiscard⟩ := Prod.mk.inj hrest
  exact {
    whole := ht
    keeps := hdiscard.trans h.keeps
    replied := hreplies ▸ h.replied
    room := hreplies ▸ h.room
    dropped := hdropped ▸ h.dropped
    cursor_lt := h.cursor_lt }

theorem cursor_lt_append (h : Settled cols rows taken before s) {q : Query} (fits : Bool)
    {a : Action} (hq : a.query s = some q) : ∀ x ∈ before ++ [⟨q, fits⟩], ∀ row col,
      x.query = .cursor row col → row.toNat < rows ∧ col.toNat < cols := by
  intro x hx row col hcursor
  rcases List.mem_append.mp hx with hx | hx
  · exact h.cursor_lt x hx row col hcursor
  · obtain rfl := List.mem_singleton.mp hx
    dsimp only at hcursor
    subst hcursor
    obtain ⟨rfl, rfl⟩ := cursor_of_query hq
    exact ⟨h.whole.sound.cursorRow_lt, h.whole.sound.cursorCol_lt⟩

/-- One action: a query with room for its reply, one without, or none. -/
theorem act (h : Settled cols rows taken before s) (a : Action) :
    Settled cols rows taken (before ++ s.askedOne a) (s.act a) := by
  have hwhole := h.whole.act a
  unfold askedOne
  cases hq : a.query s with
  | none =>
    rw [Option.map_none, Option.toList_none, List.append_nil]
    exact h.quiet hwhole (mail_act hq)
  | some q =>
    rw [act_query h.whole.sound hq] at hwhole ⊢
    rw [Option.map_some, Option.toList_some]
    by_cases hfits : s.replies.length + q.reply.length ≤ 1024
    · rw [enqueueReply_fits h.keeps hfits] at hwhole ⊢
      rw [decide_eq_true hfits]
      exact {
        whole := hwhole
        keeps := h.keeps
        replied := by
          rw [replied_concat, ← h.replied, List.append_assoc]
          rfl
        room := by rwa [List.length_append]
        dropped := by
          rw [refused_concat]
          exact h.dropped
        cursor_lt := h.cursor_lt_append true hq }
    · rw [enqueueReply_full h.keeps hfits] at hwhole ⊢
      rw [decide_eq_false hfits]
      exact {
        whole := hwhole
        keeps := h.keeps
        replied := by
          rw [replied_concat, ← h.replied]
          exact (List.append_nil _).symm
        room := h.room
        dropped := by
          rw [refused_concat, toNat_satAdd32_one, h.dropped]
          change _ = min (refused before + 1) _
          omega
        cursor_lt := h.cursor_lt_append false hq }

theorem acts (h : Settled cols rows taken before s) (l : List Action) :
    Settled cols rows taken (before ++ s.asked l) (l.foldl Screen.act s) := by
  induction l generalizing s before with
  | nil => rwa [Screen.asked, List.append_nil]
  | cons a l ih =>
    rw [Screen.asked, ← List.append_assoc]
    exact ih (h.act a)

theorem take (h : Settled cols rows taken before s) :
    Settled cols rows (taken ++ s.takeReplies.1) before s.takeReplies.2 where
  whole := h.whole.kept { h.whole.sound with } rfl rfl
  keeps := h.keeps
  replied := (List.append_nil _).trans h.replied
  room := Nat.zero_le _
  dropped := h.dropped
  cursor_lt := h.cursor_lt

end Settled

theorem settled_new {cols rows : UInt16} {s : Screen} (h : Screen.new cols rows = .ok s) :
    Settled cols.toNat rows.toNat [] [] s := by
  have hwhole : Whole cols.toNat rows.toNat s := whole_new h
  unfold Screen.new at h
  split at h
  · cases h
  · obtain rfl := Except.ok.inj h
    exact ⟨hwhole, rfl, rfl, Nat.zero_le _, rfl, nofun⟩

end Screen

namespace VtEngine

inductive Traffic
  | feed (bytes : List UInt8)
  | takeReplies

/-- A run of the host: the engine, the bytes taken, and what was asked on the way. -/
structure Exchange where
  engine : VtEngine
  taken : List UInt8
  asked : List Asked

def Exchange.call (x : Exchange) : Traffic → Exchange
  | .feed bytes => { x with
      engine := x.engine.feed bytes
      asked := x.asked ++ x.engine.screen.asked (x.engine.parser.feed bytes).2 }
  | .takeReplies => { x with
      engine := x.engine.takeReplies.2
      taken := x.taken ++ x.engine.takeReplies.1 }

def exchange (e : VtEngine) (calls : List Traffic) : Exchange := calls.foldl Exchange.call ⟨e, [], []⟩

theorem settled_exchange (h : VtEngine.new cols rows = .ok e) (calls : List Traffic) :
    (e.exchange calls).engine.screen.Settled cols.toNat rows.toNat (e.exchange calls).taken
      (e.exchange calls).asked := by
  refine List.foldlRecOn
    (motive := fun (x : Exchange) => x.engine.screen.Settled cols.toNat rows.toNat x.taken x.asked)
    calls _ (Screen.settled_new (new_ok h)) fun x hx c _ => ?_
  cases c with
  | feed bytes => exact hx.acts _
  | takeReplies => exact hx.take

/-- What was taken and what is still there are the whole replies to the queries that there was room
for, in order; the others are counted. A cursor report reads as the cursor of its query. -/
theorem replies_whole (h : VtEngine.new cols rows = .ok e) (calls : List Traffic) :
    let x := e.exchange calls
    x.taken ++ x.engine.screen.replies = replied x.asked ∧
      x.engine.screen.replies.length ≤ 1024 ∧
      x.engine.screen.repliesDropped.toNat = min (refused x.asked) (2 ^ 32 - 1) ∧
      ∀ a ∈ x.asked, ∀ row col, a.query = .cursor row col →
        row < rows ∧ col < cols ∧ scratchDsrCursor row col = some a.query.reply ∧
          Reports a.query.reply (row.toNat + 1) (col.toNat + 1) := by
  intro x
  have hsettled := settled_exchange h calls
  refine ⟨hsettled.replied, hsettled.room, hsettled.dropped, fun a ha row col hcursor => ?_⟩
  obtain ⟨hrow, hcol⟩ := hsettled.cursor_lt a ha row col hcursor
  rw [hcursor]
  refine ⟨UInt16.lt_iff_toNat_lt.mpr hrow, UInt16.lt_iff_toNat_lt.mpr hcol, ?_, reports_cursor row col⟩
  rw [scratchDsrCursor_eq, toNat_satAdd16_one hrow, toNat_satAdd16_one hcol]
  rfl

/-- A status query and a cursor query on a new engine, taken after the first. -/
theorem replies_whole_taken :
    let e := (VtEngine.new 2 1).toOption.get rfl
    let x := e.exchange [.feed [0x1b, 0x5b, 0x35, 0x6e], .takeReplies, .feed [0x1b, 0x5b, 0x36, 0x6e]]
    x.taken ++ x.engine.screen.replies = replied x.asked :=
  (replies_whole (show VtEngine.new 2 1 = _ from rfl) _).1

end VtEngine

end Rill.Vt
