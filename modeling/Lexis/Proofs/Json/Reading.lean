import Lexis.Proofs.Json.Marks

/-!
# Reading values back

`Json.read?` reads a text by the grammar of JSON: marks first, and the value that they make with a
stack of the arrays and objects that are open. There is at most one value, a comma stands between
two elements and nowhere else, and nothing but white space stands around the value. Every printed
value is read back (`Json.read?_pretty`), at any nesting.
-/

namespace Lexis.Json

/-- An array or an object that is open, with what was read of it before the current value. -/
inductive Frame where
  | array (items : List Json)
  | object (members : List (String × Json)) (key : String)

mutual

/-- Reads on where a value must begin, inside the open frames. -/
def readValue : List Mark → List Frame → Option Json
  | .num n :: ms, fs => readBehind (.num n) ms fs
  | .str s :: ms, fs => readBehind (.str s) ms fs
  | .openArray :: .closeArray :: ms, fs => readBehind (.arr []) ms fs
  | .openArray :: ms, fs => readValue ms (.array [] :: fs)
  | .openObject :: .closeObject :: ms, fs => readBehind (.obj []) ms fs
  | .openObject :: .str key :: .colon :: ms, fs => readValue ms (.object [] key :: fs)
  | _, _ => none

/-- Reads on behind a value, inside the open frames. -/
def readBehind (v : Json) : List Mark → List Frame → Option Json
  | [], [] => some v
  | .comma :: ms, .array items :: fs => readValue ms (.array (items ++ [v]) :: fs)
  | .closeArray :: ms, .array items :: fs => readBehind (.arr (items ++ [v])) ms fs
  | .comma :: .str next :: .colon :: ms, .object members key :: fs =>
    readValue ms (.object (members ++ [(key, v)]) next :: fs)
  | .closeObject :: ms, .object members key :: fs =>
    readBehind (.obj (members ++ [(key, v)])) ms fs
  | _, _ => none

end

/-- Reads a text that holds one value and nothing else. -/
def read? (text : String) : Option Json :=
  match readMarks text.toList with
  | (ms, []) => readValue ms []
  | _ => none

/-- The first element of an array is read inside the array. -/
theorem readValue_openArray_marks (v : Json) (ms : List Mark) (fs : List Frame) :
    readValue (.openArray :: (v.marks ++ ms)) fs = readValue (v.marks ++ ms) (.array [] :: fs) := by
  cases v with
  | num n => rfl
  | str s => rfl
  | arr items => cases items <;> rfl
  | obj members => cases members <;> rfl

mutual

/-- A value is read from its marks, whatever is open around it and stands behind it. -/
theorem readValue_marks : ∀ (v : Json) (ms : List Mark) (fs : List Frame),
    readValue (v.marks ++ ms) fs = readBehind v ms fs
  | .num _, _, _ => rfl
  | .str _, _, _ => rfl
  | .arr [], _, _ => rfl
  | .arr (item :: items), ms, fs => by
    rw [marks, List.cons_append, List.append_assoc, readValue_openArray_marks,
      readValue_marks item, List.append_assoc]
    exact readBehind_itemMarks items [] item ms fs
  | .obj [], _, _ => rfl
  | .obj ((key, value) :: members), ms, fs => by
    simp only [marks, List.cons_append, List.append_assoc, readValue]
    rw [readValue_marks value]
    exact readBehind_memberMarks members [] key value ms fs

/-- The elements behind an element are read up to the end of the array. -/
theorem readBehind_itemMarks : ∀ (items done : List Json) (item : Json) (ms : List Mark)
    (fs : List Frame), readBehind item (itemMarks items ++ ([.closeArray] ++ ms))
      (.array done :: fs) = readBehind (.arr (done ++ item :: items)) ms fs
  | [], _, _, _, _ => rfl
  | next :: items, done, item, ms, fs => by
    simp only [itemMarks, List.cons_append, List.append_assoc, readBehind]
    rw [readValue_marks next]
    have hitems := readBehind_itemMarks items (done ++ [item]) next ms fs
    rwa [List.append_assoc] at hitems

/-- The members behind a member are read up to the end of the object. -/
theorem readBehind_memberMarks : ∀ (members done : List (String × Json)) (key : String)
    (value : Json) (ms : List Mark) (fs : List Frame),
    readBehind value (memberMarks members ++ ([.closeObject] ++ ms)) (.object done key :: fs) =
      readBehind (.obj (done ++ (key, value) :: members)) ms fs
  | [], _, _, _, _, _ => rfl
  | (next, value') :: members, done, key, value, ms, fs => by
    simp only [memberMarks, List.cons_append, List.append_assoc, readBehind]
    rw [readValue_marks value']
    have hmembers := readBehind_memberMarks members (done ++ [(key, value)]) next value' ms fs
    rwa [List.append_assoc] at hmembers

end

/-- Every printed value is read back. -/
theorem read?_pretty (v : Json) : read? v.pretty = some v := by
  have hmarks : readMarks (print 0 v) = (v.marks, []) := by
    have hreads : ReadsAs (print 0 v) v.marks [] := readsAs_print v 0 nofun
    have hnil : readMarks [] = ([], []) := by
      rw [readMarks, readMany_of_none rfl]
      rfl
    rwa [ReadsAs, List.append_nil, hnil, List.append_nil] at hreads
  have hvalue := readValue_marks v [] []
  rw [List.append_nil] at hvalue
  rw [read?, pretty, String.toList_ofList, hmarks]
  exact hvalue

/-- White space and escapes are read as the grammar has them, not only as they are printed. -/
example : read? " [1 ,\"\\u00E9\\/\"]\r\n" = some (.arr [.num 1, .str "é/"]) := by cbv

example : read? "[1,]" = none := by cbv

end Lexis.Json
