import Mathlib.Data.List.Forall2
import Lexis.Proofs.Json.Reading
import Lexis.Token.Json

/-!
# What structured listings tell

The JSON text of tokens tells everything about them. `readJsonListing` reads the text by the grammar
of JSON, looks up the members of each object by their names and gives the tokens back, whatever
their lexemes, locations and numbers (`jsonListing_lossless`). `Token.ToldBy` says what the object
of a token looks like, member by member.
-/

namespace Lexis

/-! ## Looking into JSON values -/

namespace Json

/-- The names of the members of an object, in order. -/
def names : Json → List String
  | .obj members => members.map Prod.fst
  | _ => []

/-- The value of the first member of an object that has the name. -/
def member? (name : String) : Json → Option Json
  | .obj members => members.lookup name
  | _ => none

/-- The number that a value is. -/
def num? : Json → Option Nat
  | .num n => some n
  | _ => none

/-- The string that a value is. -/
def str? : Json → Option String
  | .str s => some s
  | _ => none

/-- The elements of an array. -/
def items? : Json → Option (List Json)
  | .arr items => some items
  | _ => none

end Json

/-! ## How tokens are told -/

/-- The value has the numbers of the position as members. -/
structure Position.ToldBy (p : Position) (v : Json) : Prop where
  line : v.member? "line" = some (.num p.line)
  column : v.member? "column" = some (.num p.column)
  offset : v.member? "offset" = some (.num p.offset)

/-- The value is an object that is tagged by the shape of the location and tells its ends. -/
def Location.ToldBy : Location → Json → Prop
  | .point p, v =>
    v.names = ["type", "line", "column", "offset"] ∧
      v.member? "type" = some (.str "position") ∧ p.ToldBy v
  | .range s, v =>
    v.names = ["type", "start", "end"] ∧ v.member? "type" = some (.str "range") ∧
      (∃ start, v.member? "start" = some start ∧ start.names = ["line", "column", "offset"] ∧
        s.start.ToldBy start) ∧
      ∃ stop, v.member? "end" = some stop ∧ stop.names = ["line", "column", "offset"] ∧
        s.stop.ToldBy stop

/-- The value is an object with the kind, the lexeme and the location of the token. -/
structure Token.ToldBy (t : Token) (v : Json) : Prop where
  names : v.names = ["kind", "lexeme", "location"]
  kind : v.member? "kind" = some (.str t.kind.name)
  lexeme : v.member? "lexeme" = some (.str t.lexeme)
  location : ∃ l, v.member? "location" = some l ∧ t.location.ToldBy l

/-- A position is told by the members it is printed with. -/
theorem Position.toldBy_members (p : Position) : p.ToldBy (.obj p.members) := ⟨rfl, rfl, rfl⟩

/-- A location is told by the value it is printed as. -/
theorem Location.toldBy_toJson (l : Location) : l.ToldBy l.toJson := by
  cases l with
  | point p => exact ⟨rfl, rfl, ⟨rfl, rfl, rfl⟩⟩
  | range s =>
    exact ⟨rfl, rfl, ⟨_, rfl, rfl, s.start.toldBy_members⟩, ⟨_, rfl, rfl, s.stop.toldBy_members⟩⟩

/-- A token is told by the value it is printed as. -/
theorem Token.toldBy_toJson (t : Token) : t.ToldBy t.toJson :=
  ⟨rfl, rfl, rfl, ⟨_, rfl, t.location.toldBy_toJson⟩⟩

/-! ## Reading tokens -/

/-- The position that a value tells. -/
def Position.ofJson? (v : Json) : Option Position := do
  let line ← (v.member? "line").bind Json.num?
  let column ← (v.member? "column").bind Json.num?
  let offset ← (v.member? "offset").bind Json.num?
  some ⟨line, column, offset⟩

/-- The location that a value tells; its tag says which members to look for. -/
def Location.ofJson? (v : Json) : Option Location := do
  let tag ← (v.member? "type").bind Json.str?
  if tag = "position" then
    (Position.ofJson? v).map .point
  else if tag = "range" then
    let start ← (v.member? "start").bind Position.ofJson?
    let stop ← (v.member? "end").bind Position.ofJson?
    some (.range ⟨start, stop⟩)
  else none

/-- The token that a value tells. -/
def Token.ofJson? (v : Json) : Option Token := do
  let kind ← ((v.member? "kind").bind Json.str?).bind TokenKind.ofName?
  let lexeme ← (v.member? "lexeme").bind Json.str?
  let location ← (v.member? "location").bind Location.ofJson?
  some ⟨kind, lexeme, location⟩

/-- A position is read from any value that tells it. -/
theorem Position.ToldBy.ofJson?_eq {p : Position} {v : Json} (h : p.ToldBy v) :
    Position.ofJson? v = some p := by
  simp [ofJson?, h.line, h.column, h.offset, Json.num?]

/-- A location is read from any value that tells it. -/
theorem Location.ToldBy.ofJson?_eq {l : Location} {v : Json} (h : l.ToldBy v) :
    Location.ofJson? v = some l := by
  cases l with
  | point p =>
    obtain ⟨-, htag, hposition⟩ := h
    simp [ofJson?, htag, Json.str?, hposition.ofJson?_eq]
  | range s =>
    obtain ⟨-, htag, ⟨start, hstart, -, htold⟩, stop, hstop, -, htold'⟩ := h
    simp [ofJson?, htag, Json.str?, hstart, hstop, htold.ofJson?_eq, htold'.ofJson?_eq]

/-- A token is read from any value that tells it. -/
theorem Token.ToldBy.ofJson?_eq {t : Token} {v : Json} (h : t.ToldBy v) :
    Token.ofJson? v = some t := by
  obtain ⟨l, hl, htold⟩ := h.location
  simp [ofJson?, h.kind, h.lexeme, hl, Json.str?, TokenKind.ofName?_name, htold.ofJson?_eq]

/-- Tokens are read from any values that tell them, in order. -/
theorem mapM_ofJson?_of_toldBy {tokens : List Token} {items : List Json}
    (h : List.Forall₂ Token.ToldBy tokens items) : items.mapM Token.ofJson? = some tokens := by
  induction h with
  | nil => rfl
  | cons htold _ ih => simp [List.mapM_cons, htold.ofJson?_eq, ih]

/-- The tokens that a text tells: it is read as a JSON array, and each element as a token. -/
def readJsonListing (text : String) : Option (List Token) :=
  ((Json.read? text).bind Json.items?).bind (·.mapM Token.ofJson?)

/-- As JSON the text is an array that tells the tokens one by one. -/
theorem exists_read?_jsonListing (tokens : List Token) : ∃ items,
    Json.read? (jsonListing tokens) = some (.arr items) ∧
      List.Forall₂ Token.ToldBy tokens items := by
  refine ⟨tokens.map Token.toJson, Json.read?_pretty _, ?_⟩
  rw [List.forall₂_map_right_iff, List.forall₂_same]
  intro t _
  exact t.toldBy_toJson

/-- The structured listing of tokens loses nothing. As JSON it is an array with one object for each
token, in order, and the members of the object tell kind, lexeme and location, the latter tagged by
its shape. So the tokens are read back from the text, and different tokens have different texts. -/
theorem jsonListing_lossless :
    (∀ tokens : List Token, readJsonListing (jsonListing tokens) = some tokens) ∧
      (∀ as bs : List Token, jsonListing as = jsonListing bs → as = bs) ∧
      (∀ tokens : List Token, ∃ items, Json.read? (jsonListing tokens) = some (.arr items) ∧
        List.Forall₂ Token.ToldBy tokens items) := by
  have hread : ∀ tokens, readJsonListing (jsonListing tokens) = some tokens := by
    intro tokens
    obtain ⟨items, hitems, htold⟩ := exists_read?_jsonListing tokens
    rw [readJsonListing, hitems]
    exact mapM_ofJson?_of_toldBy htold
  refine ⟨hread, ?_, exists_read?_jsonListing⟩
  intro as bs h
  have hboth := congrArg readJsonListing h
  rw [hread, hread] at hboth
  exact Option.some.inj hboth

end Lexis
