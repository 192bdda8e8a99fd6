import Mathlib.Data.List.Induction
import SentinelCommand.Audit.PythonJson
import SentinelCommand.Crypto.Base64Rules
import SentinelCommand.Lib.Machine

/-
  Compact tokens that are signed with HMAC-SHA256, as they are
  specified: three segments of unpadded base64url, a header, a
  payload of JSON and a signature of the first two.

  The decoder is a package outside of the program. What it is
  relied on for is that such a token with a payload of plain
  fields is accepted while it is not expired.

  Key definitions include:
    * `Jwt.urlDecode`
    * `Jwt.Compact`

  Key theorems include:
    * `Jwt.urlDecode_base64UrlNopad`
    * `Jwt.decodes_decodeHs256`
-/

--------------------
-- Segments
--------------------

namespace SentinelCommand

namespace Jwt

open Base64 Sextets Svix

def indices : List Char → Option (List Nat)
| [] => some []
| c :: rest =>
    match urlSafe.idxOf? c, indices rest with
    | some v, some vs => some (v :: vs)
    | _, _ => none

/- Unpadded base64url, without stray bits at its end. -/
def urlDecode (segment : List Char) : Option (List UInt8) :=
  match indices segment with
  | none => none
  | some vs =>
      if ofBytes (read .first 0 vs) = vs then
        some (read .first 0 vs)
      else
        none

theorem url_table :
    ∀ v < 64,
      urlSafe.idxOf? (symbolOf urlSafe v) = some v ∧
        symbolOf urlSafe v ≠ '.' := by
  decide +kernel

theorem base64UrlNopad_groups (bytes : List UInt8) :
    base64UrlNopad bytes =
      (ofBytes bytes).map (symbolOf urlSafe) := by
  rw [base64UrlNopad, encode_eq]
  exact List.append_nil _

theorem indices_symbols
    {vs : List Nat}
    (hVs : ∀ v ∈ vs, v < 64) :
    indices (vs.map (symbolOf urlSafe)) = some vs := by
  induction vs with
  | nil => rfl
  | cons v rest ih =>
      have hRest := ih (fun w hW =>
        hVs w (List.mem_cons_of_mem v hW))
      have hV := url_table v (hVs v List.mem_cons_self)
      rw [List.map_cons, indices, hV.1, hRest]

theorem urlDecode_base64UrlNopad (bytes : List UInt8) :
    urlDecode (base64UrlNopad bytes) = some bytes := by
  rw [base64UrlNopad_groups, urlDecode,
    indices_symbols (ofBytes_lt bytes)]
  dsimp only
  rw [read_ofBytes, if_pos rfl]

theorem base64UrlNopad_injective
    {bytes other : List UInt8}
    (hSame : base64UrlNopad bytes = base64UrlNopad other) :
    bytes = other := by
  have hBytes := urlDecode_base64UrlNopad bytes
  rw [hSame, urlDecode_base64UrlNopad] at hBytes
  exact (Option.some.inj hBytes).symm

theorem dot_not_mem_base64UrlNopad (bytes : List UInt8) :
    '.' ∉ base64UrlNopad bytes := by
  rw [base64UrlNopad_groups]
  intro hDot
  obtain ⟨v, hV, hSymbol⟩ := List.mem_map.mp hDot
  exact (url_table v (ofBytes_lt bytes v hV)).2 hSymbol

open Audit Svix

/- The text of bytes that are ASCII. -/
def asText (bytes : List UInt8) : Option (List Char) :=
  if bytes.all (· < 128) then
    some (bytes.map (fun b => Char.ofNat b.toNat))
  else
    none

theorem asText_asBytes
    {text : List Char}
    (hText : Ascii text) :
    asText (asBytes text) = some text := by
  have hByte :
      ∀ c ∈ text, (UInt8.ofNat c.toNat).toNat = c.toNat := by
    intro c hC
    have hBound := hText c hC
    rw [UInt8.toNat_ofNat', Nat.mod_eq_of_lt (by omega)]
  have hAll : (asBytes text).all (· < 128) = true := by
    rw [asBytes, List.all_map, List.all_eq_true]
    intro c hC
    have hBound := hText c hC
    apply decide_eq_true
    rw [UInt8.lt_iff_toNat_lt, hByte c hC]
    exact hBound
  have hBack :
      (asBytes text).map (fun b => Char.ofNat b.toNat) = text := by
    rw [asBytes, List.map_map]
    conv_rhs => rw [← List.map_id text]
    apply List.map_congr_left
    intro c hC
    change Char.ofNat (UInt8.ofNat c.toNat).toNat = c
    rw [hByte c hC, Char.ofNat_toNat]
  rw [asText, if_pos hAll, hBack]

open Audit Json Svix

/- What the library is told to check. -/
structure Validation where
  algorithm : String
  leeway : Nat
  validateAud : Bool
  requiredSpecClaims : List String

def header : Json :=
  .object [("alg", .string "HS256"), ("typ", .string "JWT")]

variable (sha256 : List UInt8 → List UInt8)

/-
  A token of a payload that is signed with a key, its JSON in
  ASCII and spelled in any way.
-/
inductive Compact
    (key : List UInt8) : List Char → Json → Prop where
  | signed
      {first second third headerText payloadText : List Char}
      {payload : Json} :
      '.' ∉ first → '.' ∉ second → '.' ∉ third →
        urlDecode first = some (asBytes headerText) →
        Ascii headerText →
        Reader.parse headerText = some header →
        urlDecode second = some (asBytes payloadText) →
        Ascii payloadText →
        Reader.parse payloadText = some payload →
        urlDecode third =
          some (hmacSha256 sha256 key
            (asBytes (first ++ '.' :: second))) →
          Compact key (first ++ '.' :: (second ++ '.' :: third))
            payload

/- Fields of strings and of 64-bit integers. -/
def Plain (fields : Fields) : Prop :=
  ∀ field ∈ fields,
    (∃ text, field.2 = .string text) ∨
      ∃ n, field.2 = .integer n ∧ Machine.InI64 n

abbrev Decoder : Type :=
  Validation → List UInt8 → List Char → Nat → Option Json

/- What is relied on of the library, at a time. -/
structure Decodes (decode : Decoder) : Prop where
  accepts :
    ∀ (validation : Validation) (key : List UInt8)
      (token : List Char) (fields : Fields) (exp : Int)
      (time : Nat),
      validation.algorithm = "HS256" →
        validation.validateAud = false →
        validation.requiredSpecClaims = ["exp"] →
        Compact sha256 key token (.object fields) →
        Plain fields → (fields.map Prod.fst).Nodup →
        ("exp", .integer exp) ∈ fields → 0 ≤ exp →
        (time : Int) ≤ exp + validation.leeway →
          decode validation key token time =
            some (.object fields)

--------------------
-- A Decoder
--------------------

def readSegment (segment : List Char) : Option Json :=
  ((urlDecode segment).bind asText).bind Reader.parse

/- A decoder that checks what it is told to, of any token. -/
def decodeHs256 : Decoder :=
  fun validation key token time =>
    match token.splitOn '.' with
    | [first, second, third] =>
        match readSegment first, readSegment second with
        | some head, some payload =>
            match head.get "alg", payload.get "exp" with
            | some (.string algorithm), some (.integer exp) =>
                if algorithm = validation.algorithm ∧
                    urlDecode third =
                      some (hmacSha256 sha256 key
                        (asBytes (first ++ '.' :: second))) ∧
                    (time : Int) ≤ exp + validation.leeway then
                  some payload
                else
                  none
            | _, _ => none
        | _, _ => none
    | _ => none

theorem lookup_of_mem
    {fields : Fields}
    {key : String}
    {value : Json}
    (hKeys : (fields.map Prod.fst).Nodup)
    (hField : (key, value) ∈ fields) :
    fields.lookup key = some value := by
  induction fields with
  | nil => cases hField
  | cons field rest ih =>
      obtain ⟨other, found⟩ := field
      rw [List.map_cons, List.nodup_cons] at hKeys
      rcases List.mem_cons.mp hField with h | h
      · cases h
        exact List.lookup_cons_self
      · have hOther : (key == other) = false := by
          rw [beq_eq_false_iff_ne]
          intro hSame
          subst hSame
          exact hKeys.1 (List.mem_map.mpr ⟨_, h, rfl⟩)
        rw [List.lookup_cons, hOther]
        exact ih hKeys.2 h

theorem readSegment_of_text
    {segment text : List Char}
    {value : Json}
    (hDecoded : urlDecode segment = some (asBytes text))
    (hText : Ascii text)
    (hParsed : Reader.parse text = some value) :
    readSegment segment = some value := by
  rw [readSegment, hDecoded, Option.bind_some,
    asText_asBytes hText, Option.bind_some, hParsed]

theorem decodes_decodeHs256 :
    Decodes sha256 (decodeHs256 sha256) where
  accepts := by
    intro validation key token fields exp time hAlgorithm _ _
      hToken _ hKeys hExp _ hTime
    cases hToken with
    | @signed first second third headerText payloadText _
        hFirst hSecond hThird hHead hHeadText hHeadParsed
        hPayload hPayloadText hPayloadParsed hSignature =>
        have hSplit :
            (first ++ '.' :: (second ++ '.' :: third)).splitOn
                '.' =
              [first, second, third] := by
          have hDots :
              ∀ segment ∈ [first, second, third],
                '.' ∉ segment := by
            intro segment hSegment
            simp only [List.mem_cons, List.not_mem_nil, or_false]
              at hSegment
            rcases hSegment with h | h | h
            · rw [h]
              exact hFirst
            · rw [h]
              exact hSecond
            · rw [h]
              exact hThird
          have hJoined := List.splitOn_intercalate '.' hDots
            (List.cons_ne_nil _ _)
          rw [List.intercalate_cons_cons,
            List.intercalate_cons_cons,
            List.intercalate_singleton, List.append_assoc,
            List.append_assoc] at hJoined
          exact hJoined
        have hGet :
            (Json.object fields).get "exp" =
              some (.integer exp) :=
          lookup_of_mem hKeys hExp
        have hAlg :
            Jwt.header.get "alg" = some (.string "HS256") := rfl
        rw [decodeHs256, hSplit]
        dsimp only
        rw [readSegment_of_text hHead hHeadText hHeadParsed,
          readSegment_of_text hPayload hPayloadText
            hPayloadParsed]
        dsimp only
        rw [hAlg, hGet]
        dsimp only
        rw [if_pos ⟨hAlgorithm.symm, hSignature, hTime⟩]

end Jwt

end SentinelCommand
