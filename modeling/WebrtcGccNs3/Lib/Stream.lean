import Mathlib.Data.List.Basic

/-!
# Self-delimiting codes

A decoder reads a prefix of its input and gives what is left, or `none` when the
input ends first. A code is self-delimiting when its decoder stops at the end of
each code word, whatever follows. Such codes can be written one after the other
without lengths in between, and read back in the same order.
-/
namespace Stream

variable {α α' β : Type*}

/-- Read the code word of a value, whatever follows it. -/
def SelfDelimiting (encode : α → List β) (decode : List β → Option (α × List β))
    (dom : α → Prop) : Prop :=
  ∀ a rest, dom a → decode (encode a ++ rest) = some (a, rest)

/-- One decoder, then the other on what is left. -/
def decodePair (decode : List β → Option (α × List β)) (decode' : List β → Option (α' × List β))
    (input : List β) : Option ((α × α') × List β) :=
  (decode input).bind fun x => (decode' x.2).map fun y => ((x.1, y.1), y.2)

/-- The decoder as often as asked, each time on what is left. -/
def decodeMany (decode : List β → Option (α × List β)) : ℕ → List β → Option (List α × List β)
  | 0, input => some ([], input)
  | n + 1, input =>
    (decodePair decode (decodeMany decode n) input).map fun x => (x.1.1 :: x.1.2, x.2)

section

variable {encode : α → List β} {decode : List β → Option (α × List β)} {dom : α → Prop}
variable {encode' : α' → List β} {decode' : List β → Option (α' × List β)} {dom' : α' → Prop}

theorem SelfDelimiting.decode_encode (h : SelfDelimiting encode decode dom) {a : α} (ha : dom a) :
    decode (encode a) = some (a, []) := by
  have hrest := h a [] ha
  rwa [List.append_nil] at hrest

theorem SelfDelimiting.pair (h : SelfDelimiting encode decode dom)
    (h' : SelfDelimiting encode' decode' dom') :
    SelfDelimiting (fun a : α × α' => encode a.1 ++ encode' a.2) (decodePair decode decode')
      (fun a => dom a.1 ∧ dom' a.2) := by
  rintro ⟨a, a'⟩ rest ⟨ha, ha'⟩
  rw [List.append_assoc, decodePair, h a _ ha, Option.bind_some, h' a' rest ha', Option.map_some]

/-- A code for the values is a code for their lists, by their length. -/
theorem SelfDelimiting.many (h : SelfDelimiting encode decode dom) (n : ℕ) :
    SelfDelimiting (fun as : List α => as.flatMap encode) (decodeMany decode n)
      (fun as => as.length = n ∧ ∀ a ∈ as, dom a) := by
  induction n with
  | zero =>
    rintro as rest ⟨hlength, -⟩
    obtain rfl := List.length_eq_zero_iff.mp hlength
    rfl
  | succ n ih =>
    rintro as rest ⟨hlength, hdom⟩
    obtain ⟨a, as, rfl⟩ := List.exists_cons_of_length_eq_add_one hlength
    obtain ⟨ha, hdom⟩ := List.forall_mem_cons.mp hdom
    have hlength : as.length = n := Nat.succ.inj hlength
    have hread := h.pair ih (a, as) rest ⟨ha, hlength, hdom⟩
    show (decodePair decode (decodeMany decode n) ((a :: as).flatMap encode ++ rest)).map _ = _
    rw [List.flatMap_cons, hread, Option.map_some]

end

end Stream
