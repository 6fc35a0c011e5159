/-
# MediaSniff.Xml.Reference — character references

An attribute value may name characters: five by predefined names, any by its decimal or
hexadecimal code. `unescape` puts the characters in. What runs from an ampersand to the
next semicolon and names no character stands for itself, and reading goes on behind the
ampersand.
-/
import MediaSniff.Text.Numeral

set_option autoImplicit false

namespace MediaSniff.Xml

/-- The character of a code point. -/
def charOfCode? (code : Nat) : Option Char :=
  if code.isValidChar then some (Char.ofNat code) else none

/-- The character that a name, written between `&` and `;`, stands for. -/
def namedChar? : List Char → Option Char
  | ['a', 'm', 'p'] => some '&'
  | ['l', 't'] => some '<'
  | ['g', 't'] => some '>'
  | ['q', 'u', 'o', 't'] => some '"'
  | ['a', 'p', 'o', 's'] => some '\x27'
  | '#' :: 'x' :: digits => (Text.unsigned32? 16 digits).bind charOfCode?
  | '#' :: digits => (Text.unsigned32? 10 digits).bind charOfCode?
  | _ => none

/-- The character referred to by what follows an ampersand, and the text behind the
semicolon. -/
def reference? (cs : List Char) : Option (Char × List Char) :=
  match cs.dropWhile (· ≠ ';') with
  | [] => none
  | _ :: rest => (namedChar? (cs.takeWhile (· ≠ ';'))).map fun c => (c, rest)

theorem reference?_length_lt {cs rest : List Char} {c : Char}
    (h : reference? cs = some (c, rest)) : rest.length < cs.length := by
  unfold reference? at h
  split at h
  · simp at h
  · rename_i d rest' e
    obtain ⟨c', -, e'⟩ := Option.map_eq_some_iff.1 h
    simp only [Prod.mk.injEq] at e'
    obtain ⟨-, rfl⟩ := e'
    have := (List.dropWhile_sublist (l := cs) (fun x => decide (x ≠ ';'))).length_le
    rw [e] at this
    simp only [List.length_cons] at this
    omega

/-- Put in the characters that a value refers to. -/
def unescape : List Char → List Char
  | [] => []
  | c :: cs =>
      if c = '&' then
        match _h : reference? cs with
        | none => c :: unescape cs
        | some (d, rest) => d :: unescape rest
      else c :: unescape cs
termination_by cs => cs.length
decreasing_by
  · simp
  · have := reference?_length_lt _h
    simp only [List.length_cons]
    omega
  · simp

end MediaSniff.Xml
