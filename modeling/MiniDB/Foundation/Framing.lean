import Mathlib.Data.List.Basic

/-!
# Self-delimiting codes

A code is self-delimiting when the code of a value can be told from whatever
follows it. What the code tells about a value is given as a key, since a code may
leave some of the value out. The codes of a sequence, written one after the other,
then tell the keys of the sequence, and so does whatever is left of them of the values
whose codes are complete.
-/

namespace MiniDB.Foundation

variable {A B K L : Type}

/-- The code of a value determines its key, and where the code ends. -/
def SelfDelimiting (valid : A → Prop) (encode : A → List B) (key : A → K) : Prop :=
  ∀ ⦃first second : A⦄, valid first → valid second → ∀ ⦃afterFirst afterSecond : List B⦄,
    encode first ++ afterFirst = encode second ++ afterSecond →
      key first = key second ∧ afterFirst = afterSecond

/-- Texts without a symbol, before its first occurrence, are the same. -/
theorem append_cons_inj_of_not_mem {symbol : B} {first second : List B} (noFirst : symbol ∉ first)
    (noSecond : symbol ∉ second) {afterFirst afterSecond : List B}
    (same : first ++ symbol :: afterFirst = second ++ symbol :: afterSecond) :
    first = second ∧ afterFirst = afterSecond := by
  induction first generalizing second with
  | nil =>
    cases second with
    | nil => exact ⟨rfl, (List.cons.inj same).2⟩
    | cons head second => exact absurd (List.cons.inj same).1 (List.ne_of_not_mem_cons noSecond)
  | cons head first ih =>
    cases second with
    | nil => exact absurd (List.cons.inj same).1.symm (List.ne_of_not_mem_cons noFirst)
    | cons otherHead second =>
      obtain ⟨headEq, tailEq⟩ := List.cons.inj same
      obtain ⟨rfl, afterEq⟩ := ih (List.not_mem_of_not_mem_cons noFirst)
        (List.not_mem_of_not_mem_cons noSecond) tailEq
      exact ⟨by rw [headEq], afterEq⟩

/-- The values whose codes, one after the other, fit into a number of symbols. -/
def complete (encode : A → List B) : (room : Nat) → List A → List A
  | _, [] => []
  | room, value :: values =>
    if (encode value).length ≤ room then
      value :: complete encode (room - (encode value).length) values
    else []

theorem complete_cons_of_le {encode : A → List B} {room : Nat} {value : A}
    (fits : (encode value).length ≤ room) (values : List A) :
    complete encode room (value :: values) =
      value :: complete encode (room - (encode value).length) values := if_pos fits

theorem complete_starts (encode : A → List B) (room : Nat) (values : List A) :
    complete encode room values <+: values := by
  induction values generalizing room with
  | nil => exact List.prefix_rfl
  | cons value values ih =>
    rw [complete]
    split
    · exact (List.prefix_cons_inj value).mpr (ih _)
    · exact List.nil_prefix

/-- More values fit into more symbols. -/
theorem complete_mono (encode : A → List B) {room larger : Nat} (le : room ≤ larger)
    (values : List A) : complete encode room values <+: complete encode larger values := by
  induction values generalizing room larger with
  | nil => exact List.prefix_rfl
  | cons value values ih =>
    by_cases fits : (encode value).length ≤ room
    · rw [complete_cons_of_le fits, complete_cons_of_le (Nat.le_trans fits le)]
      exact (List.prefix_cons_inj value).mpr (ih (Nat.sub_le_sub_right le _))
    · rw [complete, if_neg fits]
      exact List.nil_prefix

/-- The codes of a sequence fit into their own length. -/
theorem complete_flatMap (encode : A → List B) (values : List A) :
    complete encode (values.flatMap encode).length values = values := by
  induction values with
  | nil => rfl
  | cons value values ih =>
    rw [List.flatMap_cons, List.length_append, complete_cons_of_le (Nat.le_add_right _ _),
      Nat.add_sub_cancel_left, ih]

namespace SelfDelimiting

variable {valid : A → Prop} {encode other : A → List B} {key : A → K} {otherKey : A → L}

/-- Codes of one length. -/
theorem ofLength {length : Nat} (lengthEq : ∀ value, valid value → (encode value).length = length) :
    SelfDelimiting valid encode encode := by
  intro first second firstValid secondValid afterFirst afterSecond same
  exact List.append_inj same ((lengthEq first firstValid).trans (lengthEq second secondValid).symm)

/-- Codes that a symbol ends. -/
theorem ofEnd {symbol : B} (absent : ∀ value, valid value → symbol ∉ encode value) :
    SelfDelimiting valid (fun value => encode value ++ [symbol]) encode := by
  intro first second firstValid secondValid afterFirst afterSecond same
  simp only [List.append_assoc, List.cons_append, List.nil_append] at same
  exact append_cons_inj_of_not_mem (absent first firstValid) (absent second secondValid) same

/-- One code after the other. -/
theorem append (delimiting : SelfDelimiting valid encode key)
    (otherDelimiting : SelfDelimiting valid other otherKey) :
    SelfDelimiting valid (fun value => encode value ++ other value)
      (fun value => (key value, otherKey value)) := by
  intro first second firstValid secondValid afterFirst afterSecond same
  simp only [List.append_assoc] at same
  obtain ⟨keyEq, same⟩ := delimiting firstValid secondValid same
  obtain ⟨otherEq, afterEq⟩ := otherDelimiting firstValid secondValid same
  exact ⟨Prod.ext keyEq otherEq, afterEq⟩

/-- The key may be any other that it determines. -/
theorem mapKey (delimiting : SelfDelimiting valid encode key)
    (determined : ∀ ⦃first second⦄, valid first → valid second →
      key first = key second → otherKey first = otherKey second) :
    SelfDelimiting valid encode otherKey := by
  intro first second firstValid secondValid afterFirst afterSecond same
  obtain ⟨keyEq, afterEq⟩ := delimiting firstValid secondValid same
  exact ⟨determined firstValid secondValid keyEq, afterEq⟩

/-- The codes of a sequence determine its keys. -/
theorem map_eq_of_flatMap_eq (delimiting : SelfDelimiting valid encode key)
    (nonempty : ∀ value, encode value ≠ []) {first second : List A}
    (firstValid : ∀ value ∈ first, valid value) (secondValid : ∀ value ∈ second, valid value)
    (same : first.flatMap encode = second.flatMap encode) : first.map key = second.map key := by
  induction first generalizing second with
  | nil =>
    cases second with
    | nil => rfl
    | cons value second => exact absurd (List.append_eq_nil_iff.mp same.symm).1 (nonempty value)
  | cons value first ih =>
    cases second with
    | nil => exact absurd (List.append_eq_nil_iff.mp same).1 (nonempty value)
    | cons otherValue second =>
      obtain ⟨valueValid, firstValid⟩ := List.forall_mem_cons.mp firstValid
      obtain ⟨otherValid, secondValid⟩ := List.forall_mem_cons.mp secondValid
      rw [List.flatMap_cons, List.flatMap_cons] at same
      obtain ⟨keyEq, restEq⟩ := delimiting valueValid otherValid same
      rw [List.map_cons, List.map_cons, keyEq, ih firstValid secondValid restEq]

/-- A code that is complete in a text is the first one in whatever the text starts. -/
theorem eq_of_complete (delimiting : SelfDelimiting valid encode key) {first second : A}
    (firstValid : valid first) (secondValid : valid second) {text afterFirst afterSecond : List B}
    (startsFirst : text <+: encode first ++ afterFirst)
    (startsSecond : text <+: encode second ++ afterSecond)
    (fits : (encode first).length ≤ text.length) :
    key first = key second ∧ encode first = encode second := by
  have inside : encode first <+: text :=
    List.prefix_of_prefix_length_le (List.prefix_append _ _) startsFirst fits
  obtain ⟨rest, rfl⟩ := inside
  obtain ⟨beyond, same⟩ := startsSecond
  rw [List.append_assoc] at same
  obtain ⟨keyEq, afterEq⟩ := delimiting firstValid secondValid same
  exact ⟨keyEq, List.append_cancel_right (afterEq ▸ same)⟩

/-- The codes that are complete in a text are of the same values in whatever the text starts. -/
theorem map_complete_eq (delimiting : SelfDelimiting valid encode key)
    (nonempty : ∀ value, encode value ≠ []) {first second : List A} {text : List B}
    (firstValid : ∀ value ∈ first, valid value) (secondValid : ∀ value ∈ second, valid value)
    (startsFirst : text <+: first.flatMap encode) (startsSecond : text <+: second.flatMap encode) :
    (complete encode text.length first).map key = (complete encode text.length second).map key := by
  have nothingFits : ∀ value values, complete encode 0 (value :: values) = [] := fun value _ =>
    if_neg fun fits => nonempty value (List.eq_nil_of_length_eq_zero (Nat.le_zero.mp fits))
  induction first generalizing second text with
  | nil =>
    obtain rfl := List.prefix_nil.mp startsFirst
    cases second with
    | nil => rfl
    | cons value second => rw [List.length_nil, nothingFits]; rfl
  | cons value first ih =>
    cases second with
    | nil =>
      obtain rfl := List.prefix_nil.mp startsSecond
      rw [List.length_nil, nothingFits]
      rfl
    | cons otherValue second =>
      obtain ⟨valueValid, firstValid⟩ := List.forall_mem_cons.mp firstValid
      obtain ⟨otherValid, secondValid⟩ := List.forall_mem_cons.mp secondValid
      rw [List.flatMap_cons] at startsFirst startsSecond
      by_cases fits : (encode value).length ≤ text.length
      · obtain ⟨keyEq, codeEq⟩ :=
          delimiting.eq_of_complete valueValid otherValid startsFirst startsSecond fits
        obtain ⟨rest, rfl⟩ :=
          List.prefix_of_prefix_length_le (List.prefix_append _ _) startsFirst fits
        rw [← codeEq] at startsSecond
        have later := ih firstValid secondValid ((List.prefix_append_right_inj _).mp startsFirst)
          ((List.prefix_append_right_inj _).mp startsSecond)
        rw [complete_cons_of_le fits, complete_cons_of_le (codeEq ▸ fits), List.map_cons,
          List.map_cons, keyEq, ← codeEq, List.length_append, Nat.add_sub_cancel_left, later]
      · have otherFits : ¬ (encode otherValue).length ≤ text.length := by
          intro otherFits
          have codeEq := (delimiting.eq_of_complete otherValid valueValid startsSecond startsFirst
            otherFits).2
          exact fits (codeEq ▸ otherFits)
        rw [complete, complete, if_neg fits, if_neg otherFits]

end SelfDelimiting

end MiniDB.Foundation
