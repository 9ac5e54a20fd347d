import Keyring.Json.Any
import Keyring.Proofs.Json.Numerals
import Keyring.Proofs.Json.Strings

/-!
# Reading and skipping values, however they are laid out

A value of any type is read as what its tree means, and refused exactly if it means nothing: a number in
it is out of range, a surrogate stands alone, or containers stand too deep inside each other
(`gives_value`). Skipping asks for none of this and passes over every value (`skipValue_written`). Both
inductions are over the tree; the loops of the readers meet it where an item or a member begins.
-/

namespace Keyring.Json

open Reader (isBlank isDigit)

/-! ## First bytes -/

namespace Numeral

/-- A number starts with no byte but a minus sign and digits. -/
theorem head_ne (n : Numeral) {b : UInt8} (hminus : b ≠ 0x2d) (hdigit : isDigit b = false) :
    n.head ≠ b := by
  rintro rfl
  rcases n.head_cases with h | h
  · exact hminus h
  · exact Bool.noConfusion (hdigit.symm.trans h)

/-- So its first byte is one that the reader takes for the start of a number. -/
theorem isNumber_head (n : Numeral) : (decide (n.head = 0x2d) || isDigit n.head) = true := by
  rcases n.head_cases with h | h <;> simp [h]

/-- No number starts with a blank. -/
theorem isBlank_head (n : Numeral) : isBlank n.head = false := by
  simp [isBlank, n.head_ne (b := 0x20) (by decide) rfl, n.head_ne (b := 0x09) (by decide) rfl,
    n.head_ne (b := 0x0a) (by decide) rfl, n.head_ne (b := 0x0d) (by decide) rfl]

end Numeral

namespace Written

/-- The byte that a value starts with. -/
def head : Written → UInt8
  | null => 0x6e
  | bool true => 0x74
  | bool false => 0x66
  | number n => n.head
  | string _ => 0x22
  | list _ _ => 0x5b
  | object _ _ => 0x7b

/-- A value is its first byte and what stands behind it. -/
theorem exists_bytes_eq (w : Written) : ∃ more, w.bytes = w.head :: more := by
  cases w with
  | null => exact ⟨_, rfl⟩
  | bool b => cases b <;> exact ⟨_, rfl⟩
  | number n => rw [bytes]; exact n.exists_bytes_eq
  | string pieces => rw [bytes]; exact ⟨_, rfl⟩
  | list blanks items => rw [bytes]; exact ⟨_, rfl⟩
  | object blanks members => rw [bytes]; exact ⟨_, rfl⟩

/-- No value starts with a blank. -/
theorem isBlank_head (w : Written) : isBlank w.head = false := by
  cases w with
  | bool b => cases b <;> rfl
  | number n => exact n.isBlank_head
  | null | string | list | object => rfl

/-- No value starts like the end of a list. -/
theorem head_ne_listEnd (w : Written) : w.head ≠ 0x5d := by
  cases w with
  | bool b => cases b <;> decide
  | number n => exact n.head_ne (by decide) rfl
  | null | string | list | object => exact ne_of_beq_false rfl

end Written

namespace Reader

/-- What is written for blanks are blanks to the reader. -/
theorem blanks_blankBytes (blanks : List Blank) : Blanks (blankBytes blanks) := by
  intro b hb
  obtain ⟨blank, -, rfl⟩ := List.mem_map.1 hb
  cases blank <;> rfl

/-- Blanks after blanks are blanks. -/
theorem Blanks.append {blanks more : Bytes} (h : Blanks blanks) (hmore : Blanks more) :
    Blanks (blanks ++ more) := fun b hb =>
  (List.mem_append.1 hb).elim (h b) (hmore b)

/-- The first byte of a value is seen behind blanks. -/
theorem peekSolid_written {blanks : Bytes} (hb : Blanks blanks) (w : Written) (rest : Bytes) :
    peekSolid (blanks ++ (w.bytes ++ rest)) = .ok (some w.head) (w.bytes ++ rest) := by
  obtain ⟨more, hmore⟩ := w.exists_bytes_eq
  rw [hmore]
  exact peekSolid_blanks hb w.isBlank_head _

/-- The first byte of a number is seen behind blanks. -/
theorem peekSolid_number {blanks : Bytes} (hb : Blanks blanks) (n : Numeral) (rest : Bytes) :
    peekSolid (blanks ++ ((Written.number n).bytes ++ rest)) = .ok (some n.head) (n.bytes ++ rest) :=
  peekSolid_written hb (.number n) rest

/-- Blanks do not go on a number. -/
theorem StopsNumber.blanks {blanks rest : Bytes} (hb : Blanks blanks) (h : StopsNumber rest) :
    StopsNumber (blanks ++ rest) := by
  cases blanks with
  | nil => exact h
  | cons b blanks =>
    intro c hc
    cases hc
    have hblank := hb b (List.mem_cons_self ..)
    simp only [isBlank, Bool.or_eq_true, decide_eq_true_eq] at hblank
    rcases hblank with ((rfl | rfl) | rfl) | rfl <;> decide

/-- A number ends before a byte that is no digit, no point and no mark of an exponent. -/
theorem stopsNumber_cons {b : UInt8} (hdigit : isDigit b = false)
    (h : b ≠ 0x2e ∧ b ≠ 0x65 ∧ b ≠ 0x45) (rest : Bytes) : StopsNumber (b :: rest) := by
  intro c hc
  cases hc
  exact ⟨hdigit, h⟩

end Reader

/-! ## Items and members where a loop meets them -/

/-- What stands before further items of a list: a comma, unless they are all. -/
def Items.front (isFirst : Bool) (items : Items) : Bytes :=
  if isFirst then items.bytes else items.nextBytes

/-- What stands before further members of an object, like the items of a list. -/
def Members.front (isFirst : Bool) (members : Members) : Bytes :=
  if isFirst then members.bytes else members.nextBytes

section
variable (items : Items) (members : Members)

theorem Items.front_true : items.front true = items.bytes := rfl

theorem Items.front_false : items.front false = items.nextBytes := rfl

theorem Members.front_true : members.front true = members.bytes := rfl

theorem Members.front_false : members.front false = members.nextBytes := rfl

end

namespace Written

/-- What stands behind a value is shorter than the steps that are left, because the value has a byte. -/
theorem length_lt (w : Written) (blanks rest : Bytes) {steps : Nat}
    (h : (blanks ++ (w.bytes ++ rest)).length < steps + 1) : rest.length < steps := by
  obtain ⟨more, hmore⟩ := w.exists_bytes_eq
  simp only [hmore, List.length_append, List.length_cons] at h
  omega

/-- A text stands between two quotation marks. -/
theorem string_bytes (pieces : List Piece) (rest : Bytes) :
    (string pieces).bytes ++ rest = 0x22 :: (pieceBytes pieces ++ 0x22 :: rest) := by
  simp [bytes]

/-- A list stands in brackets, with its items in front of the closing one. -/
theorem list_bytes (blanks : List Blank) (items : Items) (rest : Bytes) :
    (list blanks items).bytes ++ rest =
      0x5b :: (blankBytes blanks ++ (items.front true ++ 0x5d :: rest)) := by
  simp [bytes, Items.front]

/-- An object stands in braces, with its members in front of the closing one. -/
theorem object_bytes (blanks : List Blank) (members : Members) (rest : Bytes) :
    (object blanks members).bytes ++ rest =
      0x7b :: (blankBytes blanks ++ (members.front true ++ 0x7d :: rest)) := by
  simp [bytes, Members.front]

end Written

/-- What a loop meets behind an item is shorter than what it met before it. -/
theorem Items.length_lt_front (isFirst : Bool) (before : List Blank) (w : Written)
    (after : List Blank) (items : Items) (rest : Bytes) :
    (blankBytes after ++ (items.front false ++ rest)).length <
      ((Items.cons before w after items).front isFirst ++ rest).length := by
  obtain ⟨more, hmore⟩ := w.exists_bytes_eq
  cases isFirst <;> simp [front, bytes, nextBytes, hmore] <;> omega

/-- What a loop meets behind a member is shorter than what it met before it. -/
theorem Members.length_lt_front (isFirst : Bool) (label : Label) (w : Written)
    (after : List Blank) (members : Members) (rest : Bytes) :
    (blankBytes after ++ (members.front false ++ rest)).length <
      ((Members.cons label w after members).front isFirst ++ rest).length := by
  cases isFirst <;> simp [front, bytes, nextBytes, Label.bytes] <;> omega

namespace Reader

variable {blanks : Bytes}

/-- What follows an item does not go on a number. -/
theorem stopsNumber_items (after : List Blank) (items : Items) (rest : Bytes) :
    StopsNumber (blankBytes after ++ (items.front false ++ 0x5d :: rest)) := by
  refine .blanks (blanks_blankBytes after) ?_
  cases items <;> simp only [Items.front_false, Items.nextBytes] <;>
    exact stopsNumber_cons rfl (by decide) _

/-- What follows a member does not go on a number. -/
theorem stopsNumber_members (after : List Blank) (members : Members) (rest : Bytes) :
    StopsNumber (blankBytes after ++ (members.front false ++ 0x7d :: rest)) := by
  refine .blanks (blanks_blankBytes after) ?_
  cases members <;> simp only [Members.front_false, Members.nextBytes] <;>
    exact stopsNumber_cons rfl (by decide) _

section
variable (hb : Blanks blanks) (isFirst : Bool) (rest : Bytes)
include hb

/-- Where no item follows, the loop meets the end of the list. -/
theorem nextItem_nil :
    nextItem isFirst (blanks ++ (Items.nil.front isFirst ++ 0x5d :: rest)) =
      .ok false (0x5d :: rest) := by
  have hfront : Items.nil.front isFirst = [] := by
    cases isFirst <;> simp [Items.front, Items.bytes, Items.nextBytes]
  rw [hfront, List.nil_append, nextItem, bind_ok (peekSolid_blanks hb rfl _)]
  rfl

/-- Where an item follows, the loop passes its comma, unless it is the first, and meets the item. -/
theorem nextItem_cons (before : List Blank) (w : Written) (after : List Blank) (items : Items) :
    nextItem isFirst (blanks ++ ((Items.cons before w after items).front isFirst ++ rest)) =
      .ok true (w.bytes ++ (blankBytes after ++ (items.front false ++ rest))) := by
  have hbefore := blanks_blankBytes before
  rw [nextItem]
  cases isFirst with
  | true =>
    simp only [Items.front_true, Items.bytes, List.append_assoc]
    rw [← List.append_assoc blanks, bind_ok (peekSolid_written (hb.append hbefore) w _)]
    have hend := w.head_ne_listEnd
    simp only
    rfl
  | false =>
    simp only [Items.front_false, Items.nextBytes, List.append_assoc, List.cons_append]
    rw [bind_ok (peekSolid_blanks hb rfl _)]
    change (skip >>= _) _ = _
    rw [bind_ok (skip_cons ..), bind_ok (peekSolid_written hbefore w _)]
    have hend := w.head_ne_listEnd
    simp only
    rfl

/-- The name of a member is read, wherever it stands. -/
theorem gives_nextName (label : Label) (w : Written) (after : List Blank) (members : Members) :
    Gives (nextName isFirst (blanks ++ ((Members.cons label w after members).front isFirst ++ rest)))
      ((string? label.name).map some)
      (blankBytes label.after ++ 0x3a :: (blankBytes label.gap ++
        (w.bytes ++ (blankBytes after ++ (members.front false ++ rest))))) := by
  have hbefore := blanks_blankBytes label.before
  have hquoted := Gives.map (f := some) <| gives_stringRest label.name <| blankBytes label.after ++
    0x3a :: (blankBytes label.gap ++ (w.bytes ++ (blankBytes after ++ (members.front false ++ rest))))
  rw [nextName]
  cases isFirst with
  | true =>
    simp only [Members.front_true, Members.bytes, Label.bytes, List.append_assoc, List.cons_append]
    rw [← List.append_assoc blanks, bind_ok (peekSolid_blanks (hb.append hbefore) rfl _)]
    exact hquoted
  | false =>
    simp only [Members.front_false, Members.nextBytes, Label.bytes, List.append_assoc,
      List.cons_append]
    rw [bind_ok (peekSolid_blanks hb rfl _)]
    change Gives ((skip >>= _) _) _ _
    rw [bind_ok (skip_cons ..), bind_ok (peekSolid_blanks hbefore rfl _)]
    exact hquoted

/-- Where no member follows, the loop meets the end of the object. -/
theorem nextName_nil :
    nextName isFirst (blanks ++ (Members.nil.front isFirst ++ 0x7d :: rest)) =
      .ok none (0x7d :: rest) := by
  have hfront : Members.nil.front isFirst = [] := by
    cases isFirst <;> simp [Members.front, Members.bytes, Members.nextBytes]
  rw [hfront, List.nil_append, nextName, bind_ok (peekSolid_blanks hb rfl _)]
  rfl

omit isFirst in
/-- The colon behind a name is found behind blanks. -/
theorem colon_blanks : colon (blanks ++ 0x3a :: rest) = .ok () rest := by
  rw [colon, bind_ok (peekSolid_blanks hb rfl _)]
  rfl

end

end Reader

/-! ## Reading any value -/

mutual

/-- What a value means, if at most `depth` containers stand inside each other in it. -/
def Written.json? : (depth : Nat) → Written → Option Json
  | _, .null => some .null
  | _, .bool b => some (.bool b)
  | _, .number n => n.number?.map .number
  | _, .string pieces => (string? pieces).map .string
  | 0, .list _ _ => none
  | 0, .object _ _ => none
  | depth + 1, .list _ items => (items.jsons? depth).map .array
  | depth + 1, .object _ members => (members.jsons? depth).map .object

/-- What items mean. -/
def Items.jsons? : (depth : Nat) → Items → Option (List Json)
  | _, .nil => some []
  | depth, .cons _ value _ items =>
    (value.json? depth).bind fun a => (items.jsons? depth).map (a :: ·)

/-- What members mean. -/
def Members.jsons? : (depth : Nat) → Members → Option (List (String × Json))
  | _, .nil => some []
  | depth, .cons label value _ members =>
    (string? label.name).bind fun name =>
      (value.json? depth).bind fun a => (members.jsons? depth).map ((name, a) :: ·)

end

mutual

/-- A sound value means something, if containers do not stand too deep inside each other in it. -/
theorem Written.json?_of_isSound : ∀ (w : Written) {depth : Nat}, w.IsSound → w.depth ≤ depth →
    ∃ a, w.json? depth = some a
  | .null, _, _, _ => ⟨_, by rw [Written.json?]⟩
  | .bool b, _, _, _ => ⟨_, by rw [Written.json?]⟩
  | .number n, _, hsound, _ => by
    rw [Written.IsSound] at hsound
    obtain ⟨number, hnumber⟩ := Option.isSome_iff_exists.1 hsound
    exact ⟨_, by rw [Written.json?, hnumber, Option.map_some]⟩
  | .string pieces, _, hsound, _ => by
    rw [Written.IsSound] at hsound
    obtain ⟨s, hs⟩ := Option.isSome_iff_exists.1 hsound
    exact ⟨_, by rw [Written.json?, hs, Option.map_some]⟩
  | .list _ items, 0, _, hdepth | .object _ members, 0, _, hdepth => by
    rw [Written.depth] at hdepth
    omega
  | .list _ items, depth + 1, hsound, hdepth => by
    rw [Written.IsSound] at hsound
    rw [Written.depth] at hdepth
    obtain ⟨a, ha⟩ := items.jsons?_of_areSound hsound (Nat.le_of_succ_le_succ hdepth)
    exact ⟨_, by rw [Written.json?, ha, Option.map_some]⟩
  | .object _ members, depth + 1, hsound, hdepth => by
    rw [Written.IsSound] at hsound
    rw [Written.depth] at hdepth
    obtain ⟨a, ha⟩ := members.jsons?_of_areSound hsound (Nat.le_of_succ_le_succ hdepth)
    exact ⟨_, by rw [Written.json?, ha, Option.map_some]⟩

/-- Items without a flaw that are not too deep mean something. -/
theorem Items.jsons?_of_areSound : ∀ (items : Items) {depth : Nat}, items.AreSound →
    items.depth ≤ depth → ∃ a, items.jsons? depth = some a
  | .nil, _, _, _ => ⟨_, by rw [Items.jsons?]⟩
  | .cons _ w _ items, depth, hsound, hdepth => by
    rw [Items.AreSound] at hsound
    rw [Items.depth] at hdepth
    obtain ⟨a, ha⟩ := w.json?_of_isSound hsound.1 (Nat.le_trans (Nat.le_max_left ..) hdepth)
    obtain ⟨more, hmore⟩ := items.jsons?_of_areSound hsound.2 (Nat.le_trans (Nat.le_max_right ..) hdepth)
    exact ⟨_, by rw [Items.jsons?, ha, Option.bind_some, hmore, Option.map_some]⟩

/-- Members without a flaw that are not too deep mean something. -/
theorem Members.jsons?_of_areSound : ∀ (members : Members) {depth : Nat}, members.AreSound →
    members.depth ≤ depth → ∃ a, members.jsons? depth = some a
  | .nil, _, _, _ => ⟨_, by rw [Members.jsons?]⟩
  | .cons label w _ members, depth, hsound, hdepth => by
    rw [Members.AreSound] at hsound
    rw [Members.depth] at hdepth
    obtain ⟨name, hname⟩ := Option.isSome_iff_exists.1 hsound.1
    obtain ⟨a, ha⟩ := w.json?_of_isSound hsound.2.1 (Nat.le_trans (Nat.le_max_left ..) hdepth)
    obtain ⟨more, hmore⟩ := members.jsons?_of_areSound hsound.2.2
      (Nat.le_trans (Nat.le_max_right ..) hdepth)
    exact ⟨_, by rw [Members.jsons?, hname, Option.bind_some, ha, Option.bind_some, hmore, Option.map_some]⟩

end

/-- A value that spells a text means that text. -/
theorem Written.json?_of_isText {s : String} {w : Written} (h : w.IsText s) (depth : Nat) :
    w.json? depth = some (.string s) := by
  cases w with
  | string pieces =>
    have hs : string? pieces = some s := h
    rw [json?, hs, Option.map_some]
  | null | bool | number | list | object => cases h

/-- A value that spells a word means that number. -/
theorem Written.json?_of_isWord {n : UInt32} {w : Written} (h : w.IsWord n) (depth : Nat) :
    w.json? depth = some (.number (.natural n.toNat)) := by
  have hn := n.toNat_lt
  cases w with
  | number m =>
    have hm : m.number? = some (.natural n.toNat) :=
      Numeral.number?_of_natural? h (by rw [Reader.maxInteger]; omega)
    rw [json?, hm, Option.map_some]
  | null | bool | string | list | object => cases h

/-- Members mean the members that each of them means. -/
theorem Members.jsons?_of_entries {depth : Nat} : ∀ (members : Members),
    (∀ entry ∈ members.entries, ∃ name a, entry.1 = some name ∧ entry.2.json? depth = some a) →
    ∃ ms, members.jsons? depth = some ms ∧
      List.Forall₂ (fun entry m => entry.1 = some m.1 ∧ entry.2.json? depth = some m.2) members.entries ms
  | .nil, _ => ⟨[], by rw [jsons?], .nil⟩
  | .cons label w after members, h => by
    rw [entries] at h ⊢
    obtain ⟨name, a, hname, ha⟩ := h _ (List.mem_cons_self ..)
    obtain ⟨ms, hms, hmore⟩ := members.jsons?_of_entries fun e he => h e (List.mem_cons_of_mem _ he)
    refine ⟨(name, a) :: ms, ?_, .cons ⟨hname, ha⟩ hmore⟩
    simp only at hname ha
    rw [jsons?, hname, Option.bind_some, ha, Option.bind_some, hms, Option.map_some]

namespace Reader

/-- What reads the items or members of a container, if one may stand here. -/
def inner? : (depth : Nat) → Option (Reader Json)
  | 0 => none
  | depth + 1 => some (value depth)

/-- Reading a value is reading it over the reader of what is inside. -/
theorem value_eq (depth : Nat) : value depth = valueOver (inner? depth) := by
  cases depth <;> rfl

mutual

/-- A value of any type is read from behind blanks. -/
theorem gives_value : ∀ (depth : Nat) (w : Written) {blanks rest : Bytes}, Blanks blanks →
    StopsNumber rest → Gives (value depth (blanks ++ (w.bytes ++ rest))) (w.json? depth) rest
  | depth, .null, _, _, hb, _ => by
    rw [value_eq, valueOver.eq_def, bind_ok (peekSolid_written hb ..), Written.json?]
    rfl
  | depth, .bool b, _, _, hb, _ => by
    rw [value_eq, valueOver.eq_def, bind_ok (peekSolid_written hb ..), Written.json?]
    cases b <;> rfl
  | depth, .number n, _, _, hb, hrest => by
    rw [value_eq, valueOver.eq_def, bind_ok (peekSolid_number hb n _), Written.json?]
    simp only
    rw [if_neg (n.head_ne (by decide) rfl), if_neg (n.head_ne (by decide) rfl),
      if_neg (n.head_ne (by decide) rfl), if_pos n.isNumber_head]
    exact (gives_number n hrest).map
  | depth, .string pieces, _, rest, hb, _ => by
    rw [value_eq, valueOver.eq_def, bind_ok (peekSolid_written hb ..), Written.json?, Written.string_bytes]
    exact (gives_stringRest pieces rest).map
  | 0, .list blanks items, _, _, hb, _ => by
    rw [value_eq, valueOver.eq_def, bind_ok (peekSolid_written hb ..), Written.json?]
    exact gives_error
  | 0, .object blanks members, _, _, hb, _ => by
    rw [value_eq, valueOver.eq_def, bind_ok (peekSolid_written hb ..), Written.json?]
    exact gives_error
  | depth + 1, .list blanks items, _, rest, hb, _ => by
    have hread := gives_items depth items (blanks_blankBytes blanks) true [] rest _ (Nat.lt_succ_self _)
    rw [value_eq, valueOver.eq_def, bind_ok (peekSolid_written hb ..), Written.json?, Written.list_bytes]
    simp only [List.reverse_nil, List.nil_append, Option.map_id'] at hread
    exact (hread.closing (listEnd_cons rest)).map
  | depth + 1, .object blanks members, _, rest, hb, _ => by
    have hread := gives_members depth members (blanks_blankBytes blanks) true [] rest _ (Nat.lt_succ_self _)
    rw [value_eq, valueOver.eq_def, bind_ok (peekSolid_written hb ..), Written.json?, Written.object_bytes]
    simp only [List.reverse_nil, List.nil_append, Option.map_id'] at hread
    exact (hread.closing (objectEnd_cons rest)).map

/-- The further items of a list are read after those in `read`. -/
theorem gives_items : ∀ (depth : Nat) (items : Items) {blanks : Bytes}, Blanks blanks →
    ∀ (isFirst : Bool) (read : List Json) (rest : Bytes) (steps : Nat),
    (blanks ++ (items.front isFirst ++ 0x5d :: rest)).length < steps →
    Gives (Reader.items (value depth) steps isFirst read (blanks ++ (items.front isFirst ++ 0x5d :: rest)))
      ((items.jsons? depth).map (read.reverse ++ ·)) (0x5d :: rest)
  | _, _, _, _, _, _, _, 0, hsteps => absurd hsteps (Nat.not_lt_zero _)
  | depth, .nil, _, hb, isFirst, read, rest, steps + 1, _ => by
    rw [Reader.items, bind_ok (nextItem_nil hb isFirst rest), Items.jsons?]
    simp only [Option.map_some, List.append_nil]
    rfl
  | depth, .cons before w after items, blanks, hb, isFirst, read, rest, steps + 1, hsteps => by
    have hread := gives_value depth w blanks_nil (stopsNumber_items after items rest)
    rw [Reader.items, bind_ok (nextItem_cons hb isFirst _ before w after items), Items.jsons?,
      Option.map_bind]
    refine hread.bind fun a _ => ?_
    have hlength := Items.length_lt_front isFirst before w after items (0x5d :: rest)
    have hmore := gives_items depth items (blanks_blankBytes after) false (a :: read) rest steps
      (by rw [List.length_append] at hsteps; omega)
    simpa [Option.map_map, Function.comp_def] using hmore

/-- The further members of an object are read after those in `read`. -/
theorem gives_members : ∀ (depth : Nat) (members : Members) {blanks : Bytes}, Blanks blanks →
    ∀ (isFirst : Bool) (read : List (String × Json)) (rest : Bytes) (steps : Nat),
    (blanks ++ (members.front isFirst ++ 0x7d :: rest)).length < steps →
    Gives (Reader.members (value depth) steps isFirst read
        (blanks ++ (members.front isFirst ++ 0x7d :: rest)))
      ((members.jsons? depth).map (read.reverse ++ ·)) (0x7d :: rest)
  | _, _, _, _, _, _, _, 0, hsteps => absurd hsteps (Nat.not_lt_zero _)
  | depth, .nil, _, hb, isFirst, read, rest, steps + 1, _ => by
    rw [Reader.members, bind_ok (nextName_nil hb isFirst rest), Members.jsons?]
    simp only [Option.map_some, List.append_nil]
    rfl
  | depth, .cons label w after members, blanks, hb, isFirst, read, rest, steps + 1, hsteps => by
    have hname := gives_nextName hb isFirst (0x7d :: rest) label w after members
    have hread := gives_value depth w (blanks_blankBytes label.gap) (stopsNumber_members after members rest)
    have hlength := Members.length_lt_front isFirst label w after members (0x7d :: rest)
    rw [Reader.members, Members.jsons?]
    cases hlabel : string? label.name with
    | none =>
      rw [hlabel] at hname
      exact hname.bind (g := fun _ => none) fun _ h => by cases h
    | some name =>
      rw [hlabel] at hname
      rw [bind_ok hname, Option.bind_some, Option.map_bind]
      change Gives ((colon >>= _) _) _ _
      rw [bind_ok (colon_blanks (blanks_blankBytes label.after) _)]
      refine hread.bind fun a _ => ?_
      have hmore := gives_members depth members (blanks_blankBytes after) false ((name, a) :: read) rest
        steps (by rw [List.length_append] at hsteps; omega)
      simpa [Option.map_map, Function.comp_def] using hmore

end

/-! ## Skipping any value -/

/-- Goes on after a value inside containers, and past further values until none is open. -/
def afterValue (steps : Nat) (containers : List Container) : Reader Unit := do
  match ← skipEnds containers with
  | none => pure ()
  | some containers => skipValues steps containers

section
variable {blanks : Bytes} (hb : Blanks blanks) (rest : Bytes)
include hb

/-- A name is passed over, with the colon behind it. -/
theorem skipName_quoted (label : Label) :
    skipName (blanks ++ 0x22 :: (pieceBytes label.name ++ 0x22 ::
      (blankBytes label.after ++ 0x3a :: rest))) = .ok () rest := by
  have hname := skipStringBytes_pieces label.name (blankBytes label.after ++ 0x3a :: rest)
  rw [skipName, bind_ok (peekSolid_blanks hb rfl _)]
  change (skip >>= _) _ = _
  rw [bind_ok (skip_cons ..)]
  exact (bind_ok (x := skipStringBytes) hname).trans (colon_blanks (blanks_blankBytes label.after) _)

end

section
variable (containers : List Container)

/-- A string starts and ends. -/
theorem skipStart_string (pieces : List Piece) (rest : Bytes) :
    skipStart (Written.string pieces).head containers ((Written.string pieces).bytes ++ rest) =
      skipEnds containers rest := by
  rw [Written.string_bytes]
  change (skip >>= _) _ = _
  rw [bind_ok (skip_cons ..)]
  exact bind_ok (x := skipStringBytes) (skipStringBytes_pieces ..)

/-- A number starts and ends. -/
theorem skipStart_number (n : Numeral) {rest : Bytes} (hrest : StopsNumber rest) :
    skipStart (Written.number n).head containers ((Written.number n).bytes ++ rest) =
      skipEnds containers rest := by
  have h := skipNumber_bytes hrest n
  rw [Written.head, Written.bytes, skipStart, if_neg (n.head_ne (by decide) rfl),
    if_neg (n.head_ne (by decide) rfl), if_neg (n.head_ne (by decide) rfl),
    if_neg (n.head_ne (by decide) rfl), if_neg (n.head_ne (by decide) rfl), Numeral.head, Numeral.bytes]
  simp only [List.append_assoc]
  cases n.isNegative with
  | true => exact bind_ok (x := skipNumber) h
  | false =>
    have hminus : Digit.byte n.first ≠ 0x2d := ne_of_isDigit (isDigit_byte n.first) rfl
    simp only [Bool.false_eq_true, if_false, if_neg hminus, isDigit_byte, if_true, List.nil_append]
    exact bind_ok h

/-- A list without items starts and ends. -/
theorem skipStart_noItems (blanks : List Blank) (rest : Bytes) :
    skipStart (Written.list blanks .nil).head containers ((Written.list blanks .nil).bytes ++ rest) =
      skipEnds containers rest := by
  have hb := blanks_blankBytes blanks
  rw [Written.list_bytes]
  change (skip >>= _) _ = _
  rw [bind_ok (skip_cons ..)]
  simp only [Items.front_true, Items.bytes, List.nil_append]
  rw [bind_ok (peekSolid_blanks hb rfl rest)]
  rfl

/-- An object without members starts and ends. -/
theorem skipStart_noMembers (blanks : List Blank) (rest : Bytes) :
    skipStart (Written.object blanks .nil).head containers ((Written.object blanks .nil).bytes ++ rest) =
      skipEnds containers rest := by
  have hb := blanks_blankBytes blanks
  rw [Written.object_bytes]
  change (skip >>= _) _ = _
  rw [bind_ok (skip_cons ..)]
  simp only [Members.front_true, Members.bytes, List.nil_append]
  rw [bind_ok (peekSolid_blanks hb rfl rest)]
  rfl

/-- A list with items starts, up to the first one. -/
theorem skipStart_items (blanks before : List Blank) (w : Written) (after : List Blank) (items : Items)
    (rest : Bytes) :
    skipStart (Written.list blanks (.cons before w after items)).head containers
        ((Written.list blanks (.cons before w after items)).bytes ++ rest) =
      .ok (some (.list :: containers))
        (w.bytes ++ (blankBytes after ++ (items.front false ++ 0x5d :: rest))) := by
  have hb := (blanks_blankBytes blanks).append (blanks_blankBytes before)
  have hend := w.head_ne_listEnd
  rw [Written.list_bytes]
  change (skip >>= _) _ = _
  rw [bind_ok (skip_cons ..)]
  simp only [Items.front_true, Items.bytes, List.append_assoc]
  rw [← List.append_assoc, bind_ok (peekSolid_written hb w _)]
  simp only
  rfl

/-- An object with members starts, up to the value of the first one. -/
theorem skipStart_members (blanks : List Blank) (label : Label) (w : Written) (after : List Blank)
    (members : Members) (rest : Bytes) :
    skipStart (Written.object blanks (.cons label w after members)).head containers
        ((Written.object blanks (.cons label w after members)).bytes ++ rest) =
      .ok (some (.object :: containers)) (blankBytes label.gap ++
        (w.bytes ++ (blankBytes after ++ (members.front false ++ 0x7d :: rest)))) := by
  have hb := (blanks_blankBytes blanks).append (blanks_blankBytes label.before)
  have hname := skipName_quoted blanks_nil (blankBytes label.gap ++ (w.bytes ++ (blankBytes after ++
    (members.front false ++ 0x7d :: rest)))) label
  rw [Written.object_bytes]
  change (skip >>= _) _ = _
  rw [bind_ok (skip_cons ..)]
  simp only [Members.front_true, Members.bytes, Label.bytes, List.append_assoc, List.cons_append]
  rw [← List.append_assoc, bind_ok (peekSolid_blanks hb rfl _)]
  exact bind_ok hname

/-- After a value without items or members the loop goes on with what is after it. -/
theorem skipValues_plain {w : Written} {blanks rest : Bytes} (hb : Blanks blanks) (steps : Nat)
    (hstart : skipStart w.head containers (w.bytes ++ rest) = skipEnds containers rest) :
    skipValues (steps + 1) containers (blanks ++ (w.bytes ++ rest)) = afterValue steps containers rest := by
  rw [skipValues, bind_ok (peekSolid_written hb w rest)]
  exact bind_eq hstart

/-- After the start of a container the loop goes on with the first value in it. -/
theorem skipValues_container {w : Written} {blanks rest rest' : Bytes} {containers' : List Container}
    (hb : Blanks blanks) (steps : Nat)
    (hstart : skipStart w.head containers (w.bytes ++ rest) = .ok (some containers') rest') :
    skipValues (steps + 1) containers (blanks ++ (w.bytes ++ rest)) =
      skipValues steps containers' rest' := by
  rw [skipValues, bind_ok (peekSolid_written hb w rest)]
  simp only
  rw [bind_ok hstart]

end

section
variable {blanks : Bytes} (hb : Blanks blanks) (containers : List Container) (steps : Nat) (rest : Bytes)
include hb

/-- After the last item of a list, skipping goes on behind the list. -/
theorem afterValue_listEnd :
    afterValue steps (.list :: containers) (blanks ++ (Items.nil.front false ++ 0x5d :: rest)) =
      afterValue steps containers rest := by
  have hend : skipEnds (.list :: containers) (blanks ++ (Items.nil.front false ++ 0x5d :: rest)) =
      skipEnds containers rest := by
    rw [Items.front_false, Items.nextBytes, List.nil_append, skipEnds,
      bind_ok (peekSolid_blanks hb rfl rest)]
    rfl
  exact bind_eq hend

/-- After the last member of an object, skipping goes on behind the object. -/
theorem afterValue_objectEnd :
    afterValue steps (.object :: containers) (blanks ++ (Members.nil.front false ++ 0x7d :: rest)) =
      afterValue steps containers rest := by
  have hend : skipEnds (.object :: containers) (blanks ++ (Members.nil.front false ++ 0x7d :: rest)) =
      skipEnds containers rest := by
    rw [Members.front_false, Members.nextBytes, List.nil_append, skipEnds,
      bind_ok (peekSolid_blanks hb rfl rest)]
    rfl
  exact bind_eq hend

/-- After a comma in a list, skipping goes on with the next value. -/
theorem afterValue_comma :
    afterValue steps (.list :: containers) (blanks ++ 0x2c :: rest) =
      skipValues steps (.list :: containers) rest := by
  have hcomma : skipEnds (.list :: containers) (blanks ++ 0x2c :: rest) =
      .ok (some (.list :: containers)) rest := by
    rw [skipEnds, bind_ok (peekSolid_blanks hb rfl rest)]
    rfl
  rw [afterValue, bind_ok hcomma]

/-- After a comma in an object, skipping goes on with the value behind the next name. -/
theorem afterValue_label (label : Label) (w : Written) (after : List Blank) (members : Members) :
    afterValue steps (.object :: containers)
        (blanks ++ ((Members.cons label w after members).front false ++ rest)) =
      skipValues steps (.object :: containers) (blankBytes label.gap ++
        (w.bytes ++ (blankBytes after ++ (members.front false ++ rest)))) := by
  have hname := skipName_quoted (blanks_blankBytes label.before) (blankBytes label.gap ++ (w.bytes ++
    (blankBytes after ++ (members.front false ++ rest)))) label
  have hcomma : skipEnds (.object :: containers)
      (blanks ++ ((Members.cons label w after members).front false ++ rest)) =
        .ok (some (.object :: containers)) (blankBytes label.gap ++ (w.bytes ++
          (blankBytes after ++ (members.front false ++ rest)))) := by
    simp only [Members.front_false, Members.nextBytes, Label.bytes, List.append_assoc, List.cons_append]
    rw [skipEnds, bind_ok (peekSolid_blanks hb rfl _)]
    exact bind_ok hname
  rw [afterValue, bind_ok hcomma]

end

mutual

/-- A value is passed over inside any containers, and the loop goes on after it, for any number of steps
larger than the number of bytes that are left. -/
theorem skipValues_written : ∀ (w : Written) {blanks rest : Bytes}, Blanks blanks → StopsNumber rest →
    ∀ (containers : List Container) {steps : Nat} {result : EStateM.Result Problem Bytes Unit},
    (∀ steps, rest.length < steps → afterValue steps containers rest = result) →
    (blanks ++ (w.bytes ++ rest)).length < steps →
    skipValues steps containers (blanks ++ (w.bytes ++ rest)) = result
  | _, _, _, _, _, _, 0, _, _, hsteps => absurd hsteps (Nat.not_lt_zero _)
  | .null, _, _, hb, _, containers, steps + 1, _, hafter, hsteps => by
    have hlength := Written.length_lt .null _ _ hsteps
    exact (skipValues_plain containers hb steps rfl).trans (hafter steps hlength)
  | .bool b, _, _, hb, _, containers, steps + 1, _, hafter, hsteps => by
    have hlength := Written.length_lt (.bool b) _ _ hsteps
    exact (skipValues_plain containers hb steps (by cases b <;> rfl)).trans (hafter steps hlength)
  | .number n, _, _, hb, hrest, containers, steps + 1, _, hafter, hsteps => by
    have hlength := Written.length_lt (.number n) _ _ hsteps
    exact (skipValues_plain containers hb steps (skipStart_number containers n hrest)).trans
      (hafter steps hlength)
  | .string pieces, _, rest, hb, hrest, containers, steps + 1, _, hafter, hsteps => by
    have hlength := Written.length_lt (.string pieces) _ _ hsteps
    exact (skipValues_plain containers hb steps (skipStart_string containers pieces rest)).trans
      (hafter steps hlength)
  | .list blanks .nil, _, rest, hb, hrest, containers, steps + 1, _, hafter, hsteps => by
    have hlength := Written.length_lt (.list blanks .nil) _ _ hsteps
    exact (skipValues_plain containers hb steps (skipStart_noItems containers blanks rest)).trans
      (hafter steps hlength)
  | .object blanks .nil, _, rest, hb, hrest, containers, steps + 1, _, hafter, hsteps => by
    have hlength := Written.length_lt (.object blanks .nil) _ _ hsteps
    exact (skipValues_plain containers hb steps (skipStart_noMembers containers blanks rest)).trans
      (hafter steps hlength)
  | .list blanks (.cons before w after items), _, rest, hb, _, containers, steps + 1, _, hafter, hsteps => by
    have hstart := skipStart_items containers blanks before w after items rest
    refine (skipValues_container containers hb steps hstart).trans ?_
    refine skipValues_written w blanks_nil (stopsNumber_items after items rest) _ ?_ ?_
    · exact fun steps => afterValue_items items (blanks_blankBytes after) containers hafter
    · simp [Written.list_bytes, Items.front, Items.bytes] at hsteps ⊢
      omega
  | .object blanks (.cons label w after members), _, rest, hb, _, containers, steps + 1, _, hafter,
      hsteps => by
    have hstart := skipStart_members containers blanks label w after members rest
    refine (skipValues_container containers hb steps hstart).trans ?_
    refine skipValues_written w (blanks_blankBytes label.gap) (stopsNumber_members after members rest)
      _ ?_ ?_
    · exact fun steps => afterValue_members members (blanks_blankBytes after) containers hafter
    · simp [Written.object_bytes, Members.front, Members.bytes, Label.bytes] at hsteps ⊢
      omega

/-- Further items are passed over, and the list ends. -/
theorem afterValue_items : ∀ (items : Items) {blanks rest : Bytes}, Blanks blanks →
    ∀ (containers : List Container) {steps : Nat} {result : EStateM.Result Problem Bytes Unit},
    (∀ steps, rest.length < steps → afterValue steps containers rest = result) →
    (blanks ++ (items.front false ++ 0x5d :: rest)).length < steps →
    afterValue steps (.list :: containers) (blanks ++ (items.front false ++ 0x5d :: rest)) = result
  | .nil, _, _, hb, containers, steps, _, hafter, hsteps => by
    rw [afterValue_listEnd hb]
    refine hafter steps ?_
    simp at hsteps
    omega
  | .cons before w after items, _, rest, hb, containers, steps, _, hafter, hsteps => by
    simp only [Items.front_false, Items.nextBytes, List.append_assoc, List.cons_append] at hsteps ⊢
    rw [afterValue_comma hb]
    refine skipValues_written w (blanks_blankBytes before) (stopsNumber_items after items rest) _ ?_ ?_
    · exact fun steps => afterValue_items items (blanks_blankBytes after) containers hafter
    · simp [Items.front] at hsteps ⊢
      omega

/-- Further members are passed over, and the object ends. -/
theorem afterValue_members : ∀ (members : Members) {blanks rest : Bytes}, Blanks blanks →
    ∀ (containers : List Container) {steps : Nat} {result : EStateM.Result Problem Bytes Unit},
    (∀ steps, rest.length < steps → afterValue steps containers rest = result) →
    (blanks ++ (members.front false ++ 0x7d :: rest)).length < steps →
    afterValue steps (.object :: containers) (blanks ++ (members.front false ++ 0x7d :: rest)) = result
  | .nil, _, _, hb, containers, steps, _, hafter, hsteps => by
    rw [afterValue_objectEnd hb]
    refine hafter steps ?_
    simp at hsteps
    omega
  | .cons label w after members, _, rest, hb, containers, steps, _, hafter, hsteps => by
    rw [afterValue_label hb]
    refine skipValues_written w (blanks_blankBytes label.gap) (stopsNumber_members after members rest)
      _ ?_ ?_
    · exact fun steps => afterValue_members members (blanks_blankBytes after) containers hafter
    · simp [Members.front, Members.nextBytes, Label.bytes] at hsteps ⊢
      omega

end

/-- Every value is skipped, whatever it means. -/
theorem skipValue_written {blanks rest : Bytes} (hb : Blanks blanks) (w : Written)
    (hrest : StopsNumber rest) : skipValue (blanks ++ (w.bytes ++ rest)) = .ok () rest :=
  skipValues_written w hb hrest [] (fun _ _ => rfl) (Nat.lt_succ_self _)

end Reader

end Keyring.Json
