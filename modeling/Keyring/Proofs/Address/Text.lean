import Keyring.Address
import Keyring.Proofs.Bytes.Spelling

/-!
# Hexadecimal text behind a mark

A mark is `0x` or `0X`. Digits are read with one mark before them or without one: what is read as some bytes
spells them in either form (`Address.decode?_dropHexMark`). A second mark is no digit. An address is read
from what spells its twenty bytes (`Address.ofText?_eq_some_iff`).
-/

namespace Keyring

namespace Hex

/-- What may stand before digits: nothing, `0x` or `0X`. -/
def marks : List (List Char) :=
  [[], ['0', 'x'], ['0', 'X']]

/-- The text spells the bytes, behind a mark or without one. -/
def SpellsMarked (text : List Char) (bytes : Bytes) : Prop :=
  ∃ mark ∈ marks, ∃ digits, text = mark ++ digits ∧ Spells digits bytes

/-- Digits that spell bytes do so without a mark, too. -/
theorem spellsMarked_of_spells {text : List Char} {bytes : Bytes} (h : Spells text bytes) :
    SpellsMarked text bytes :=
  ⟨[], by simp [marks], text, rfl, h⟩

end Hex

namespace Address

open Hex (SpellsMarked marks decode?_eq_some_iff)

/-- Digits have no mark before them, because its letter is no digit. -/
theorem dropHexMark_of_decode? {text : List Char} {bytes : Bytes} (h : Hex.decode? text = some bytes) :
    dropHexMark text = text := by
  have hsmall : Hex.digitValue? 'x' = none := by decide
  have hcapital : Hex.digitValue? 'X' = none := by decide
  fun_cases dropHexMark text with
  | case1 rest => simp [Hex.decode?, hsmall] at h
  | case2 rest => simp [Hex.decode?, hcapital] at h
  | case3 => rfl

/-- One mark is dropped before digits are read. -/
theorem decode?_dropHexMark {text : List Char} {bytes : Bytes} :
    Hex.decode? (dropHexMark text) = some bytes ↔ SpellsMarked text bytes := by
  constructor
  · fun_cases dropHexMark text with
    | case1 rest => exact fun h => ⟨['0', 'x'], by simp [marks], rest, rfl, decode?_eq_some_iff.1 h⟩
    | case2 rest => exact fun h => ⟨['0', 'X'], by simp [marks], rest, rfl, decode?_eq_some_iff.1 h⟩
    | case3 => exact fun h => Hex.spellsMarked_of_spells (decode?_eq_some_iff.1 h)
  · rintro ⟨mark, hmark, digits, rfl, hdigits⟩
    have hread := decode?_eq_some_iff.2 hdigits
    simp only [marks, List.mem_cons, List.not_mem_nil, or_false] at hmark
    rcases hmark with rfl | rfl | rfl
    · rw [List.nil_append, dropHexMark_of_decode? hread, hread]
    · exact hread
    · exact hread

/-- An address is read from forty digits, behind a mark or without one. -/
theorem ofText?_eq_some_iff {text : String} {address : Address} :
    ofText? text = some address ↔ SpellsMarked text.toList address.toBytes := by
  simp only [ofText?, Option.bind_eq_some_iff, decode?_dropHexMark, ofBytes?_eq_some_iff]
  exact exists_eq_right

end Address

end Keyring
