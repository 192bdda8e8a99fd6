import SentinelCommand.Json.PyAcceptance
import SentinelCommand.PyCodec
import SentinelCommand.Sentinel.CompleteRequest

/-
  The decode step of every JSON body, from the bytes of the
  request on, and the search for a NUL that it and the node
  socket share.

  `serde_json` is a parameter: whatever value it reads.

  Key definitions include:
    * `Query.nulLocation`
    * `Json.texts`, `Json.Holds`

  Key theorems include:
    * `Query.nulLocation_eq`
    * `Query.decodeJsonBody_nulFree`
-/

--------------------
-- The Search
--------------------

namespace SentinelCommand

namespace Query

open Panics

mutual

/-
  The search with the path it is at: what it found, and the
  path as it leaves it.
-/
def nulLocation :
    Json → List Json → Option (List Json) × List Json
| .string s, loc =>
    if Json.textCarriesNul s then (some loc, loc)
    else (none, loc)
| .array items, loc => nulAmongItems 0 items loc
| .object map, loc => nulAmongFields map loc
| _, loc => (none, loc)

def nulAmongItems
    (i : Nat) :
    List Json → List Json → Option (List Json) × List Json
| [], loc => (none, loc)
| item :: rest, loc =>
    let pushed := loc ++ [.integer i]
    let (found, left) := nulLocation item pushed
    let popped := left.dropLast
    match found with
    | some place => (some place, popped)
    | none => nulAmongItems (i + 1) rest popped

def nulAmongFields :
    List (String × Json) → List Json →
      Option (List Json) × List Json
| [], loc => (none, loc)
| (key, item) :: rest, loc =>
    let pushed := loc ++ [.string key]
    let (found, left) :=
      if Json.textCarriesNul key then
        (some pushed, pushed)
      else
        nulLocation item pushed
    let popped := left.dropLast
    match found with
    | some place => (some place, popped)
    | none => nulAmongFields rest popped

end

end Query

--------------------
-- The Texts of a Value
--------------------

namespace Json

def under
    (step : Json)
    (entry : List Json × String) : List Json × String :=
  (step :: entry.1, entry.2)

mutual

/-
  Every key and string of a value with its path, in document
  order: a key before what it names.
-/
def texts : Json → List (List Json × String)
| .string text => [([], text)]
| .array items => textsOfItems 0 items
| .object fields => textsOfFields fields
| _ => []

def textsOfItems
    (i : Nat) : List Json → List (List Json × String)
| [] => []
| item :: rest =>
    (texts item).map (under (.integer i)) ++
      textsOfItems (i + 1) rest

def textsOfFields :
    List (String × Json) → List (List Json × String)
| [] => []
| (key, item) :: rest =>
    ([.string key], key) ::
      (texts item).map (under (.string key)) ++
        textsOfFields rest

end

/- A path in a value leads to a string, or to a key. -/
inductive Holds : Json → List Json → String → Prop where
  | text (text : String) : Holds (.string text) [] text
  | item
      {items : List Json}
      {i : Nat}
      {value : Json}
      {path : List Json}
      {text : String}
      (hItem : items[i]? = some value)
      (hInside : Holds value path text) :
      Holds (.array items) (.integer i :: path) text
  | key
      {fields : List (String × Json)}
      {key : String}
      {value : Json}
      (hField : (key, value) ∈ fields) :
      Holds (.object fields) [.string key] key
  | field
      {fields : List (String × Json)}
      {key : String}
      {value : Json}
      {path : List Json}
      {text : String}
      (hField : (key, value) ∈ fields)
      (hInside : Holds value path text) :
      Holds (.object fields) (.string key :: path) text

mutual

/- The enumeration leaves out nothing and adds nothing. -/
theorem mem_texts_iff :
    (value : Json) → (path : List Json) → (text : String) →
      ((path, text) ∈ texts value ↔ Holds value path text)
| .null, _, _ => iff_of_false nofun nofun
| .bool _, _, _ => iff_of_false nofun nofun
| .integer _, _, _ => iff_of_false nofun nofun
| .float _, _, _ => iff_of_false nofun nofun
| .string s, path, text => by
    rw [texts, List.mem_singleton, Prod.mk.injEq]
    constructor
    · rintro ⟨rfl, rfl⟩
      exact .text _
    · intro hHolds
      cases hHolds
      exact ⟨rfl, rfl⟩
| .array items, path, text => by
    rw [texts, mem_textsOfItems_iff 0 items path text]
    constructor
    · rintro ⟨j, item, inner, hItem, rfl, hInside⟩
      rw [Nat.zero_add]
      exact .item hItem hInside
    · intro hHolds
      cases hHolds with
      | @item _ j item inner _ hItem hInside =>
          refine ⟨j, item, inner, hItem, ?_, hInside⟩
          rw [Nat.zero_add]
| .object fields, path, text => by
    rw [texts, mem_textsOfFields_iff fields path text]
    constructor
    · rintro ⟨key, item, hField, hEntry⟩
      rcases hEntry with ⟨rfl, rfl⟩ | ⟨inner, rfl, hInside⟩
      · exact .key hField
      · exact .field hField hInside
    · intro hHolds
      cases hHolds with
      | key hField =>
          exact ⟨_, _, hField, Or.inl ⟨rfl, rfl⟩⟩
      | field hField hInside =>
          exact ⟨_, _, hField, Or.inr ⟨_, rfl, hInside⟩⟩

theorem mem_textsOfItems_iff :
    (i : Nat) → (items : List Json) → (path : List Json) →
      (text : String) →
      ((path, text) ∈ textsOfItems i items ↔
        ∃ (j : Nat) (item : Json) (inner : List Json),
          items[j]? = some item ∧
            path = .integer (i + j : Nat) :: inner ∧
            Holds item inner text)
| i, [], path, text => by
    refine iff_of_false nofun ?_
    rintro ⟨j, item, inner, hItem, _⟩
    rw [List.getElem?_nil] at hItem
    exact absurd hItem nofun
| i, first :: rest, path, text => by
    rw [textsOfItems, List.mem_append, List.mem_map,
      mem_textsOfItems_iff (i + 1) rest path text]
    constructor
    · rintro (⟨⟨inner, t⟩, hInner, hUnder⟩ |
        ⟨j, item, inner, hItem, rfl, hInside⟩)
      · rw [under, Prod.mk.injEq] at hUnder
        rcases hUnder with ⟨rfl, rfl⟩
        exact ⟨0, first, inner, rfl, rfl,
          (mem_texts_iff first inner t).mp hInner⟩
      · refine ⟨j + 1, item, inner, hItem, ?_, hInside⟩
        rw [Nat.add_right_comm, Nat.add_assoc]
    · rintro ⟨j, item, inner, hItem, rfl, hInside⟩
      cases j with
      | zero =>
          rw [List.getElem?_cons_zero, Option.some.injEq]
            at hItem
          rw [hItem]
          exact Or.inl ⟨(inner, text),
            (mem_texts_iff item inner text).mpr hInside, rfl⟩
      | succ j =>
          refine Or.inr ⟨j, item, inner, hItem, ?_, hInside⟩
          rw [Nat.add_right_comm, Nat.add_assoc]

theorem mem_textsOfFields_iff :
    (fields : List (String × Json)) → (path : List Json) →
      (text : String) →
      ((path, text) ∈ textsOfFields fields ↔
        ∃ (key : String) (item : Json), (key, item) ∈ fields ∧
          (path = [.string key] ∧ text = key ∨
            ∃ inner, path = .string key :: inner ∧
              Holds item inner text))
| [], path, text => by
    refine iff_of_false nofun ?_
    rintro ⟨key, item, hField, _⟩
    exact absurd hField nofun
| (first, value) :: rest, path, text => by
    rw [textsOfFields, List.cons_append, List.mem_cons,
      List.mem_append, List.mem_map,
      mem_textsOfFields_iff rest path text]
    constructor
    · rintro (hKey | ⟨⟨inner, t⟩, hInner, hUnder⟩ |
        ⟨key, item, hField, hEntry⟩)
      · rw [Prod.mk.injEq] at hKey
        exact ⟨first, value, List.mem_cons_self,
          Or.inl hKey⟩
      · rw [under, Prod.mk.injEq] at hUnder
        rcases hUnder with ⟨rfl, rfl⟩
        exact ⟨first, value, List.mem_cons_self,
          Or.inr ⟨inner, rfl,
            (mem_texts_iff value inner t).mp hInner⟩⟩
      · exact ⟨key, item, List.mem_cons_of_mem _ hField,
          hEntry⟩
    · rintro ⟨key, item, hField, hEntry⟩
      rw [List.mem_cons, Prod.mk.injEq] at hField
      rcases hField with ⟨rfl, rfl⟩ | hField
      · rcases hEntry with ⟨rfl, rfl⟩ | ⟨inner, rfl, hInside⟩
        · exact Or.inl rfl
        · exact Or.inr (Or.inl ⟨(inner, text),
            (mem_texts_iff item inner text).mpr hInside,
            rfl⟩)
      · exact Or.inr (Or.inr ⟨key, item, hField, hEntry⟩)

end

--------------------
-- What Is Found
--------------------

def bearsNul (entry : List Json × String) : Bool :=
  textCarriesNul entry.2

def placed
    (loc : List Json)
    (found : Option (List Json × String)) :
    Option (List Json) :=
  found.map (fun entry => loc ++ entry.1)

theorem find_under
    (loc : List Json)
    (step : Json)
    (entries : List (List Json × String)) :
    placed loc ((entries.map (under step)).find? bearsNul) =
      placed (loc ++ [step]) (entries.find? bearsNul) := by
  rw [List.find?_map, placed, placed, Option.map_map]
  congr 1
  funext entry
  rw [Function.comp_apply, under, List.append_assoc,
    List.singleton_append]

theorem find_cons
    (path : List Json)
    (text : String)
    (rest : List (List Json × String)) :
    ((path, text) :: rest).find? bearsNul =
      if textCarriesNul text then
        some (path, text)
      else
        rest.find? bearsNul := by
  rw [List.find?_cons, bearsNul]
  cases textCarriesNul text with
  | true => rfl
  | false => rfl

theorem placed_or
    (loc : List Json)
    (first second : Option (List Json × String)) :
    placed loc (first.or second) =
      (placed loc first).or (placed loc second) := by
  cases first with
  | none => rfl
  | some entry => rfl

mutual

theorem nulLocation_eq_find :
    (loc : List Json) → (value : Json) →
      value.nulLocation loc =
        placed loc (value.texts.find? bearsNul)
| _, .null => rfl
| _, .bool _ => rfl
| _, .integer _ => rfl
| _, .float _ => rfl
| loc, .string text => by
    rw [nulLocation, texts, find_cons]
    split_ifs
    · exact congrArg some (List.append_nil loc).symm
    · rfl
| loc, .array items => by
    rw [nulLocation, texts]
    exact nulInItems_eq_find loc 0 items
| loc, .object fields => by
    rw [nulLocation, texts]
    exact nulInFields_eq_find loc fields

theorem nulInItems_eq_find :
    (loc : List Json) → (i : Nat) → (items : List Json) →
      nulInItems loc i items =
        placed loc ((textsOfItems i items).find? bearsNul)
| _, _, [] => rfl
| loc, i, item :: rest => by
    rw [nulInItems, textsOfItems, List.find?_append,
      placed_or, find_under, nulLocation_eq_find _ item,
      ← nulInItems_eq_find loc (i + 1) rest]
    rfl

theorem nulInFields_eq_find :
    (loc : List Json) → (fields : List (String × Json)) →
      nulInFields loc fields =
        placed loc ((textsOfFields fields).find? bearsNul)
| _, [] => rfl
| loc, (key, item) :: rest => by
    rw [nulInFields, textsOfFields, List.cons_append,
      find_cons]
    split_ifs
    · rfl
    · rw [List.find?_append, placed_or, find_under,
        nulLocation_eq_find _ item,
        nulInFields_eq_find loc rest]

end

theorem textCarriesNul_eq_false_iff (text : String) :
    textCarriesNul text = false ↔
      Char.ofNat 0 ∉ text.toList := by
  rw [textCarriesNul, List.any_eq_false]
  constructor
  · intro hFree hMem
    exact hFree _ hMem rfl
  · intro hFree c hMem hZero
    have hNul : c = Char.ofNat 0 := by
      rw [← Char.ofNat_toNat c, beq_iff_eq.mp hZero]
    rw [hNul] at hMem
    exact hFree hMem

theorem find_texts_eq_none_iff (value : Json) :
    value.texts.find? bearsNul = none ↔
      ∀ path text, Holds value path text →
        Char.ofNat 0 ∉ text.toList := by
  rw [List.find?_eq_none]
  constructor
  · intro hNone path text hHolds
    rw [← textCarriesNul_eq_false_iff]
    exact Bool.eq_false_iff.mpr
      (hNone _ ((mem_texts_iff value path text).mpr hHolds))
  · rintro hFree ⟨path, text⟩ hEntry
    have hHolds := (mem_texts_iff value path text).mp hEntry
    exact Bool.eq_false_iff.mp
      ((textCarriesNul_eq_false_iff text).mpr
        (hFree path text hHolds))

end Json

--------------------
-- The Threaded Path
--------------------

namespace Query

mutual

/- The search is pure: the path is left as it was found. -/
theorem nulLocation_eq :
    (value : Json) → (loc : List Json) →
      nulLocation value loc = (value.nulLocation loc, loc)
| .null, _ => rfl
| .bool _, _ => rfl
| .integer _, _ => rfl
| .float _, _ => rfl
| .string text, loc => by
    rw [nulLocation, Json.nulLocation]
    split_ifs
    · rfl
    · rfl
| .array items, loc => by
    rw [nulLocation, Json.nulLocation]
    exact nulAmongItems_eq 0 items loc
| .object map, loc => by
    rw [nulLocation, Json.nulLocation]
    exact nulAmongFields_eq map loc

theorem nulAmongItems_eq :
    (i : Nat) → (items : List Json) → (loc : List Json) →
      nulAmongItems i items loc =
        (Json.nulInItems loc i items, loc)
| _, [], _ => rfl
| i, item :: rest, loc => by
    rw [nulAmongItems, Json.nulInItems]
    dsimp only
    rw [nulLocation_eq item]
    dsimp only
    rw [List.dropLast_concat]
    cases hFound :
        item.nulLocation (loc ++ [.integer i]) with
    | none =>
        exact nulAmongItems_eq (i + 1) rest loc
    | some place => rfl

theorem nulAmongFields_eq :
    (fields : List (String × Json)) → (loc : List Json) →
      nulAmongFields fields loc =
        (Json.nulInFields loc fields, loc)
| [], _ => rfl
| (key, item) :: rest, loc => by
    rw [nulAmongFields, Json.nulInFields]
    dsimp only
    cases hNul : Json.textCarriesNul key with
    | true =>
        rw [if_pos rfl, if_pos rfl]
        dsimp only
        rw [List.dropLast_concat]
        rfl
    | false =>
        rw [if_neg Bool.false_ne_true,
          if_neg Bool.false_ne_true, nulLocation_eq item]
        dsimp only
        rw [List.dropLast_concat]
        cases hFound :
            item.nulLocation (loc ++ [.string key]) with
        | none => exact nulAmongFields_eq rest loc
        | some place => rfl

end

--------------------
-- The Decode Step
--------------------

open Panics Sentinel

variable (fromStr : List Char → Option Json)

/- `validation_error(..).unwrap_err()`. -/
def refuse (err : BodyError) : Res ApiError (Option Json) :=
  match validationError [err] with
  | .ok _ => .error .panics
  | .error e => .error (.error e)

def invalidJson (msg : String) (pos : Nat) : BodyError where
  kind := "json_invalid"
  loc := [.string "body", .integer pos]
  msg := "JSON decode error"
  input := .object []
  ctx := some (.object [("error", .string msg)])

def stringNul (loc : List Json) : BodyError where
  kind := "string_nul"
  loc := loc
  msg := "Text must not contain a NUL (\\u0000) character"
  input := .null
  ctx := none

def byteOrderMark : List UInt8 := [0xef, 0xbb, 0xbf]

/- `json.loads` does not see a leading mark. -/
def withoutMark (bytes : List UInt8) : List UInt8 :=
  if byteOrderMark <+: bytes then
    bytes.drop byteOrderMark.length
  else
    bytes

/- What `serde_json` reads, once Python accepted the text. -/
def readValue (text : List Char) : Res ApiError (Option Json) :=
  match fromStr text with
  | none => .error (.error unreadable)
  | some value =>
      match (nulLocation value [.string "body"]).1 with
      | some loc => refuse (stringNul loc)
      | none => .ok (some value)

def decodeJsonBody
    (bytes : List UInt8) : Res ApiError (Option Json) :=
  if bytes = [] then
    .ok none
  else
    match Utf8.decode (withoutMark bytes) with
    | none => .error (.error unreadable)
    | some text =>
        match PyJson.pythonDecodeError text with
        | .ok (some (.invalid msg pos)) =>
            refuse (invalidJson msg pos)
        | .ok (some .tooDeep) => .error (.error unreadable)
        | .ok none => readValue fromStr text
        | .error _ => .error .panics

variable {fromStr}

/- No string and no key of the value has a NUL. -/
def NulFree (value : Json) : Prop :=
  ∀ path text, value.Holds path text →
    Char.ofNat 0 ∉ text.toList

theorem nulLocation_eq_none_iff
    (value : Json)
    (loc : List Json) :
    (nulLocation value loc).1 = none ↔ NulFree value := by
  rw [nulLocation_eq, Json.nulLocation_eq_find, Json.placed,
    Option.map_eq_none_iff]
  exact Json.find_texts_eq_none_iff value

theorem refuse_safe
    (P : Option Json → Prop)
    (err : BodyError) :
    Safe P (refuse err) := by
  rw [refuse, validationError]
  trivial

theorem readValue_safe (text : List Char) :
    Safe (fun answer => ∀ value ∈ answer, NulFree value)
      (readValue fromStr text) := by
  rw [readValue]
  cases fromStr text with
  | none => trivial
  | some value =>
      dsimp only
      cases hFound :
          (nulLocation value [.string "body"]).1 with
      | some loc => exact refuse_safe _ (stringNul loc)
      | none =>
          intro read hRead
          cases hRead
          exact (nulLocation_eq_none_iff value _).mp hFound

/- The decode step does not panic, and lets no NUL through. -/
theorem decodeJsonBody_safe (bytes : List UInt8) :
    Safe (fun answer => ∀ value ∈ answer, NulFree value)
      (decodeJsonBody fromStr bytes) := by
  rw [decodeJsonBody]
  split_ifs with hEmpty
  · exact nofun
  · cases Utf8.decode (withoutMark bytes) with
    | none => trivial
    | some text =>
        rcases PyJson.pythonDecodeError_runs text with
          ⟨result, hResult⟩
        dsimp only
        rw [hResult]
        cases result with
        | none => exact readValue_safe text
        | some error =>
            cases error with
            | tooDeep => trivial
            | invalid msg pos =>
                exact refuse_safe _ (invalidJson msg pos)

/-
  No NUL comes out of the decode step; the search finds the
  first one of any value, and restores the path it was given.
-/
theorem decodeJsonBody_nulFree
    (fromStr : List Char → Option Json) :
    (∀ bytes value,
      decodeJsonBody fromStr bytes = .ok (some value) →
        NulFree value) ∧
      ∀ value loc,
        (nulLocation value loc).1 =
            (value.texts.find? Json.bearsNul).map
              (fun entry => loc ++ entry.1) ∧
          ((nulLocation value loc).1 = none ↔
            NulFree value) ∧
          (nulLocation value loc).2 = loc := by
  constructor
  · intro bytes value hOk
    have hSafe :
        Safe (fun answer => ∀ value ∈ answer, NulFree value)
          (decodeJsonBody fromStr bytes) :=
      decodeJsonBody_safe bytes
    rw [hOk] at hSafe
    exact hSafe value rfl
  · intro value loc
    refine ⟨?_, nulLocation_eq_none_iff value loc, ?_⟩
    · rw [nulLocation_eq, Json.nulLocation_eq_find,
        Json.placed]
    · rw [nulLocation_eq]

/- The body `"a"`. -/
theorem decodeJsonBody_nulFree_string :
    decodeJsonBody (fun _ => some (.string "a"))
        [0x22, 0x61, 0x22] =
      .ok (some (.string "a")) ∧
        NulFree (.string "a") := by
  have hText :
      Utf8.decode (withoutMark [0x22, 0x61, 0x22]) =
        some "\"a\"".toList :=
    Utf8.decode_eq_some_iff.mpr (by decide)
  have hOk :
      decodeJsonBody (fun _ => some (.string "a"))
          [0x22, 0x61, 0x22] =
        .ok (some (.string "a")) := by
    rw [decodeJsonBody, if_neg nofun, hText]
    rfl
  exact ⟨hOk, (decodeJsonBody_nulFree _).1 _ _ hOk⟩

inductive Incoming where
  | skipped
  | refused (reply : Json)
  | admitted (data : Json)

/- What `serve_node` does with a text frame first. -/
def incoming
    (fromStr : List Char → Option Json)
    (text : List Char) : Incoming :=
  match fromStr text with
  | none => .skipped
  | some data =>
      if (nulLocation data []).1.isSome then
        .refused (.object
          [("type", .string "error"),
            ("id", (data.get "id").getD .null),
            ("payload", .object
              [("detail", .string
                ("Message must not contain a NUL " ++
                  "(\\u0000) character"))])])
      else
        .admitted data

/- A frame reaches the handlers only without a NUL. -/
theorem incoming_eq_admitted_iff
    {text : List Char}
    {data : Json} :
    incoming fromStr text = .admitted data ↔
      fromStr text = some data ∧ NulFree data := by
  rw [incoming]
  cases fromStr text with
  | none => exact iff_of_false nofun nofun
  | some value =>
      dsimp only
      rw [Option.some.injEq]
      split_ifs with hFound
      · refine iff_of_false nofun ?_
        rintro ⟨rfl, hFree⟩
        rw [(nulLocation_eq_none_iff value []).mpr hFree]
          at hFound
        exact absurd hFound nofun
      · rw [Option.not_isSome_iff_eq_none,
          nulLocation_eq_none_iff] at hFound
        constructor
        · intro hSame
          cases hSame
          exact ⟨rfl, hFound⟩
        · rintro ⟨rfl, _⟩
          rfl

end Query

end SentinelCommand
