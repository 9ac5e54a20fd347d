import Keyring.Proofs.Json.Forms
import Keyring.Proofs.Json.Values
import Mathlib.Data.List.TakeWhile

/-!
# Reading records, however they are laid out

A form tells a record type if each of its slots tells the member in its place (`Form.Tells`). The record
is then read from any value as the form reads it from the tree (`Form.Tells.gives_read`): from an object
member by member, with other members skipped, from a list item by item, and from nothing else.
-/

namespace Keyring.Json

open Reader

/-! ## Readers that always fail -/

namespace Reader

variable {α β : Type}

/-- The reader fails on every text. -/
def Fails (x : Reader α) : Prop :=
  ∀ s rest, Gives (x s) none rest

/-- Refusing fails everywhere. -/
theorem fails_refuse (cause : Cause) : Fails (refuse cause : Reader α) := fun _ _ => gives_error

/-- So does refusing what comes next. -/
theorem fails_failAhead (cause : Cause) : Fails (failAhead cause : Reader α) := fun _ _ => gives_error

/-- So does what goes on with something that fails everywhere. -/
theorem Fails.bind (x : Reader β) {f : β → Reader α} (h : ∀ b, Fails (f b)) : Fails (x >>= f) := by
  intro s rest
  simp only [Bind.bind, EStateM.bind]
  cases x s with
  | ok b s' => exact h b s' rest
  | error problem s' => exact gives_error

/-- So does a value of a wrong type. -/
theorem fails_wrongType (first : UInt8) (expected : String) :
    Fails (wrongType first expected : Reader α) := by
  intro s rest
  refine Gives.blame ?_
  revert s rest
  change Fails _
  have hrefuse (cause : Cause) : Fails (refuse cause : Reader α) := fails_refuse cause
  repeat' split
  · exact .bind _ fun _ => .bind _ fun _ => hrefuse _
  · exact .bind _ fun _ => .bind _ fun _ => hrefuse _
  · exact .bind _ fun _ => .bind _ fun _ => hrefuse _
  · exact .bind _ fun _ => hrefuse _
  · exact .bind _ fun _ => .bind _ fun _ => hrefuse _
  · exact hrefuse _
  · exact hrefuse _
  · exact fails_failAhead _

end Reader

/-! ## Values of one type -/

namespace Written

/-- The text that a value is, or none for the word. -/
def textOrNull? : Written → Option (Option String)
  | null => some none
  | w => w.text?.map some

/-- The number below `2 ^ 32` that a value is. -/
def word? : Written → Option UInt32
  | number n =>
    n.number?.bind fun
      | .natural m => if m < 2 ^ 32 then some (UInt32.ofNat m) else none
      | _ => none
  | _ => none

end Written

namespace Reader

section
variable {blanks rest : Bytes} (hb : Blanks blanks) (w : Written)
include hb

/-- A text is read behind blanks. -/
theorem gives_string : Gives (string (blanks ++ (w.bytes ++ rest))) w.text? rest := by
  rw [string]
  cases w with
  | string pieces =>
    rw [bind_ok (peekSolid_written hb ..), Written.string_bytes]
    exact gives_stringRest pieces rest
  | number n =>
    have hquote := n.head_ne (b := 0x22) (by decide) rfl
    rw [bind_ok (peekSolid_number hb n rest)]
    simp only
    exact fails_wrongType ..
  | bool b =>
    rw [bind_ok (peekSolid_written hb ..)]
    cases b <;> exact fails_wrongType ..
  | null | list | object =>
    rw [bind_ok (peekSolid_written hb ..)]
    exact fails_wrongType ..

/-- A text or nothing is read behind blanks. -/
theorem gives_stringOrNull : Gives (stringOrNull (blanks ++ (w.bytes ++ rest))) w.textOrNull? rest := by
  have hstring : Gives (string (w.bytes ++ rest)) w.text? rest := gives_string blanks_nil w
  have hstring := hstring.map (f := some)
  rw [stringOrNull]
  cases w with
  | number n =>
    have hnull := n.head_ne (b := 0x6e) (by decide) rfl
    rw [bind_ok (peekSolid_number hb n rest)]
    simp only [Option.some.injEq, hnull, imp_self]
    exact hstring
  | bool b =>
    rw [bind_ok (peekSolid_written hb ..)]
    cases b <;> exact hstring
  | null =>
    rw [bind_ok (peekSolid_written hb ..)]
    exact gives_ok
  | string | list | object =>
    rw [bind_ok (peekSolid_written hb ..)]
    exact hstring

/-- A word is read behind blanks. -/
theorem gives_word32 (hrest : StopsNumber rest) :
    Gives (word32 (blanks ++ (w.bytes ++ rest))) w.word? rest := by
  rw [word32]
  cases w with
  | number n =>
    rw [bind_ok (peekSolid_number hb n rest)]
    simp only [n.isNumber_head, if_true]
    refine ((gives_number n hrest).bind fun number _ => ?_).blame
    cases number with
    | natural m =>
      simp only
      split
      · exact gives_ok
      · exact fails_refuse ..
    | negative m => exact fails_refuse ..
    | real isNegative magnitude => exact fails_refuse ..
  | bool b =>
    rw [bind_ok (peekSolid_written hb ..)]
    cases b <;> exact fails_wrongType ..
  | null | string | list | object =>
    rw [bind_ok (peekSolid_written hb ..)]
    exact fails_wrongType ..

end

end Reader

/-! ## The end of a list that may be too long -/

namespace Written

/-- No value starts with a comma. -/
theorem head_ne_comma (w : Written) : w.head ≠ 0x2c := by
  cases w with
  | bool b => cases b <;> decide
  | number n => exact n.head_ne (by decide) rfl
  | null | string | list | object => exact ne_of_beq_false rfl

end Written

namespace Reader

variable {blanks : Bytes} (hb : Blanks blanks) (isFirst : Bool)
include hb

/-- A list does not end before an item. -/
theorem gives_listEnd_cons (before : List Blank) (w : Written) (after : List Blank) (items : Items)
    (rest rest' : Bytes) :
    Gives (listEnd (blanks ++ ((Items.cons before w after items).front isFirst ++ rest))) none rest' := by
  have hbefore := blanks_blankBytes before
  have hend := w.head_ne_listEnd
  have hcomma := w.head_ne_comma
  rw [listEnd]
  cases isFirst with
  | true =>
    simp only [Items.front_true, Items.bytes, List.append_assoc]
    rw [← List.append_assoc blanks, bind_ok (peekSolid_written (hb.append hbefore) w _)]
    simp only
    exact gives_error
  | false =>
    simp only [Items.front_false, Items.nextBytes, List.append_assoc, List.cons_append]
    rw [bind_ok (peekSolid_blanks hb rfl _)]
    change Gives ((skip >>= _) _) _ _
    rw [bind_ok (skip_cons ..), bind_ok (peekSolid_written hbefore w _)]
    simp only [Option.some.injEq, hend, imp_self]
    exact gives_error

/-- Where no item follows, the list ends. -/
theorem listEnd_nil (rest : Bytes) :
    listEnd (blanks ++ (Items.nil.front isFirst ++ 0x5d :: rest)) = .ok () rest := by
  have hfront : Items.nil.front isFirst = [] := by
    cases isFirst <;> simp [Items.front, Items.bytes, Items.nextBytes]
  rw [hfront, List.nil_append, listEnd, bind_ok (peekSolid_blanks hb rfl _)]
  rfl

end Reader

/-- Behind a document only blanks are allowed. -/
theorem Reader.textEnd_blanks {blanks : Bytes} (hb : Blanks blanks) : textEnd blanks = .ok () [] := by
  have hdrop : blanks.dropWhile isBlank = [] := List.dropWhile_eq_nil_iff.2 hb
  have hpeek : peekSolid blanks = .ok none [] := by simp only [peekSolid, hdrop, List.head?_nil]
  rw [textEnd, bind_ok hpeek]
  rfl

/-! ## Forms of records -/

/-- A slot tells a member: the member has its names and is read as it takes values, if at most `depth`
containers stand inside each other in them. -/
structure Slot.Tells {ρ : Type} (depth : Nat) (s : Slot ρ) (m : Member ρ) : Prop where
  names : s.names = m.name :: m.otherName.toList
  isSet : ∀ parts, m.isSet parts = (s.get parts).isSome
  read : ∀ {blanks rest : Bytes} (w : Written) (parts : ρ), Blanks blanks → StopsNumber rest →
    Gives (m.read depth parts (blanks ++ (w.bytes ++ rest)))
      ((s.parse w).map fun v => s.set v parts) rest

namespace Form

variable {ρ α : Type} {form : Form ρ} {record : Record ρ α} {depth : Nat}

/-- A form tells a record type: its slots tell the members in their order. -/
def Tells (depth : Nat) (form : Form ρ) (record : Record ρ α) : Prop :=
  List.Forall₂ (Slot.Tells depth) form.slots record.members

/-- A name stands for a slot and for the member that it tells, or for neither. -/
theorem Tells.find? (h : form.Tells depth record) (name : String) :
    (form.find? name = none ∧ record.find? name = none) ∨
      ∃ s m, form.find? name = some s ∧ record.find? name = some m ∧ s.Tells depth m := by
  simp only [Form.find?, Record.find?]
  rw [Tells] at h
  generalize form.slots = slots at h
  generalize record.members = members at h
  induction h with
  | nil => exact .inl ⟨rfl, rfl⟩
  | @cons s m slots members hs _ ih =>
    have hsame : (name ∈ s.names) ↔ (m.name = name ∨ m.otherName = some name) := by
      rw [hs.names]
      simp [eq_comm]
    by_cases hname : name ∈ s.names
    · have hm := hsame.1 hname
      exact .inr ⟨s, m, by simp [hname], by simp [hm], hs⟩
    · have hm := mt hsame.2 hname
      rcases ih with ⟨hslots, hmembers⟩ | ⟨t, n, hslots, hmembers, ht⟩
      · exact .inl ⟨by simpa [hname] using hslots, by simpa [hm] using hmembers⟩
      · exact .inr ⟨t, n, by simpa [hname] using hslots, by simpa [hm] using hmembers, ht⟩

/-- A record is built of its members. -/
theorem gives_ofMembers (parts : ρ) (rest : Bytes) :
    Gives (record.ofMembers parts rest) (record.build parts).toOption rest := by
  rw [Record.ofMembers]
  cases record.build parts with
  | ok a => exact gives_ok
  | error name => exact gives_error

/-- A record is built of the items of a list, too. -/
theorem gives_ofItems (parts : ρ) (rest : Bytes) :
    Gives (record.ofItems parts rest) (record.build parts).toOption rest := by
  rw [Record.ofItems]
  cases record.build parts with
  | ok a => exact gives_ok
  | error name => exact gives_error

/-- The further members of an object are taken, one after the other. -/
theorem gives_readMembers (h : form.Tells depth record) : ∀ (members : Members) {blanks : Bytes},
    Blanks blanks → ∀ (isFirst : Bool) (parts : ρ) (rest : Bytes) (steps : Nat),
    (blanks ++ (members.front isFirst ++ 0x7d :: rest)).length < steps →
    Gives (record.readMembers depth steps isFirst parts
        (blanks ++ (members.front isFirst ++ 0x7d :: rest)))
      ((form.take members.entries parts).bind fun parts => (record.build parts).toOption)
      (0x7d :: rest)
  | _, _, _, _, _, _, 0, hsteps => absurd hsteps (Nat.not_lt_zero _)
  | .nil, _, hb, isFirst, parts, rest, steps + 1, _ => by
    rw [Record.readMembers, bind_ok (nextName_nil hb isFirst rest)]
    exact gives_ofMembers parts _
  | .cons label w after members, _, hb, isFirst, parts, rest, steps + 1, hsteps => by
    have hname := gives_nextName hb isFirst (0x7d :: rest) label w after members
    have hlength := Members.length_lt_front isFirst label w after members (0x7d :: rest)
    have hafter := blanks_blankBytes after
    have hgap := blanks_blankBytes label.gap
    have hstop := stopsNumber_members after members rest
    have hmore (parts : ρ) := gives_readMembers h members hafter false parts rest steps
      (by rw [List.length_append] at hsteps; omega)
    rw [Record.readMembers, Members.entries, take, List.foldlM_cons]
    cases hlabel : string? label.name with
    | none =>
      rw [hlabel] at hname
      exact hname.bind (g := fun _ => none) fun _ h => by cases h
    | some name =>
      rw [hlabel] at hname
      have hcolon := colon_blanks (blanks_blankBytes label.after)
      rw [bind_ok hname]
      rcases h.find? name with ⟨hslot, hmember⟩ | ⟨s, m, hslot, hmember, hs⟩
      · have hstep : form.takeEntry parts (some name, w) = some parts := by simp [takeEntry, hslot]
        rw [hstep]
        simp only [hmember]
        rw [bind_ok (hcolon _), bind_ok (skipValue_written hgap w hstop)]
        exact hmore parts
      · have hstep : form.takeEntry parts (some name, w) = s.put w parts := by simp [takeEntry, hslot]
        rw [hstep, Slot.put]
        simp only [hmember, hs.isSet]
        cases (s.get parts).isSome with
        | true => exact gives_error
        | false =>
          simp only [Bool.false_eq_true, if_false]
          rw [bind_ok (hcolon _), Option.bind_eq_bind, Option.bind_assoc]
          exact (hs.read w parts hgap hstop).bind fun parts _ => hmore parts

/-- The items of a list are taken, one after the other, and the list ends. -/
theorem gives_readItems {slots : List (Slot ρ)} {members : List (Member ρ)}
    (h : List.Forall₂ (Slot.Tells depth) slots members) (items : Items) {blanks : Bytes}
    (hb : Blanks blanks) (isFirst : Bool) (parts : ρ) (rest : Bytes) :
    Gives (closing (Record.readItems depth members isFirst parts >>= record.ofItems) listEnd
        (blanks ++ (items.front isFirst ++ 0x5d :: rest)))
      ((takeItems slots items parts).bind fun parts => (record.build parts).toOption) rest := by
  induction h generalizing items blanks isFirst parts with
  | nil =>
    have hread (rest : Bytes) : Gives (record.ofItems parts rest) _ rest := gives_ofItems parts rest
    cases items with
    | nil => exact (hread _).closing (x := record.ofItems parts) (listEnd_nil hb isFirst rest)
    | cons before w after items =>
      exact (hread _).closing_fails (x := record.ofItems parts)
        (gives_listEnd_cons hb isFirst before w after items _ rest)
  | @cons s m slots members hs _ ih =>
    cases items with
    | nil =>
      have hbody : (Record.readItems depth (m :: members) isFirst parts >>= record.ofItems)
          (blanks ++ (Items.nil.front isFirst ++ 0x5d :: rest)) = record.ofItems parts (0x5d :: rest) := by
        rw [Record.readItems]
        exact bind_ok (bind_ok (nextItem_nil hb isFirst rest))
      rw [closing_eq hbody]
      exact (gives_ofItems parts _).closing (listEnd_cons rest)
    | cons before w after items =>
      have hafter := blanks_blankBytes after
      have hread := hs.read w parts blanks_nil (stopsNumber_items after items rest)
      rw [List.nil_append] at hread
      have hbody : (Record.readItems depth (m :: members) isFirst parts >>= record.ofItems)
          (blanks ++ ((Items.cons before w after items).front isFirst ++ 0x5d :: rest)) =
            (m.read depth parts >>= fun parts =>
              Record.readItems depth members false parts >>= record.ofItems)
              (w.bytes ++ (blankBytes after ++ (items.front false ++ 0x5d :: rest))) := by
        rw [Record.readItems, bind_assoc, bind_ok (nextItem_cons hb isFirst _ before w after items)]
        simp
      rw [closing_eq hbody, takeItems]
      cases hparse : s.parse w with
      | none =>
        rw [hparse] at hread
        exact (hread.bind (g := fun _ => none) fun _ h => by cases h).closing (listEnd_cons rest)
      | some v =>
        rw [hparse] at hread
        rw [closing_eq (bind_ok hread)]
        exact ih items hafter false (s.set v parts)

/-- A record is read from any value as its form reads it from the tree. -/
theorem Tells.gives_read (h : form.Tells depth record) {blanks rest : Bytes} (hb : Blanks blanks)
    (w : Written) :
    Gives (record.read (depth + 1) (blanks ++ (w.bytes ++ rest))) (form.read? record w) rest := by
  have hwrong : Gives (wrongType w.head record.title (w.bytes ++ rest)) (none : Option α) rest :=
    fails_wrongType ..
  rw [Record.read]
  cases w with
  | list blanks items =>
    rw [bind_ok (peekSolid_written hb ..), Written.list_bytes]
    exact (gives_readItems h items (blanks_blankBytes blanks) true record.empty rest).blame
  | object blanks members =>
    have hread := gives_readMembers h members (blanks_blankBytes blanks) true record.empty rest _
      (Nat.lt_succ_self _)
    rw [bind_ok (peekSolid_written hb ..), Written.object_bytes]
    exact (hread.closing (objectEnd_cons rest)).blame
  | number n =>
    rw [bind_ok (peekSolid_number hb n rest)]
    simp only [if_neg (n.head_ne (b := 0x5b) (by decide) rfl),
      if_neg (n.head_ne (b := 0x7b) (by decide) rfl)]
    exact hwrong
  | bool b =>
    rw [bind_ok (peekSolid_written hb ..)]
    cases b <;> exact hwrong
  | null | string =>
    rw [bind_ok (peekSolid_written hb ..)]
    exact hwrong

/-- A text holds a record exactly if its value tells one. -/
theorem Tells.readText_bytes (h : form.Tells 126 record) (d : Document) :
    (record.readText d.bytes).toOption = form.read? record d.value := by
  have hafter := blanks_blankBytes d.after
  have hread : Gives (record.read 127 d.bytes) (form.read? record d.value) (blankBytes d.after) := by
    rw [Document.bytes, List.append_assoc]
    exact h.gives_read (blanks_blankBytes d.before) d.value
  have htext := hread.bind (f := fun a => do textEnd; pure a) (g := some) fun a _ => by
    rw [bind_ok (textEnd_blanks hafter)]
    exact gives_ok
  cases hform : form.read? record d.value with
  | some a =>
    rw [hform] at htext
    have htext : _ = EStateM.Result.ok a [] := htext
    simp only [Record.readText, htext]
    rfl
  | none =>
    rw [hform] at htext
    obtain ⟨problem, left, htext⟩ := htext
    simp only [Record.readText, htext]
    rfl

end Form

end Keyring.Json
