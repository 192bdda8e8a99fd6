import SentinelCommand.Json
import SentinelCommand.Lib.Utf16

/-
  A reader of JSON as its standard has it: escapes with
  surrogate pairs joined, the fields of an object in the order
  they are written, and nothing after the value.

  A number with a fraction or an exponent is kept as it is
  spelled. A half of a surrogate pair alone is no text.

  Key definitions include:
    * `Json.Reader.unescape`
    * `Json.Reader.number`
    * `Json.Reader.parse`
-/

--------------------
-- Strings
--------------------

namespace SentinelCommand

namespace Json

namespace Reader

open Utf16

def isSpace (c : Char) : Bool :=
  c.toNat = 32 || c.toNat = 9 || c.toNat = 10 || c.toNat = 13

def skip (text : List Char) : List Char :=
  text.dropWhile isSpace

/- What follows a reversed solidus and `u`. -/
def codePoint (text : List Char) : Option (Char × List Char) :=
  match readUnit text with
  | none => none
  | some (unit, rest) =>
      if IsHigh unit then
        match rest with
        | b :: u :: rest =>
            if b = backslash ∧ u = 'u' then
              match readUnit rest with
              | none => none
              | some (second, rest) =>
                  if IsLow second then
                    some (Char.ofNat (join unit second), rest)
                  else
                    none
            else
              none
        | _ => none
      else if IsLow unit then
        none
      else
        some (Char.ofNat unit, rest)

/- What follows a reversed solidus. -/
def escaped : List Char → Option (Char × List Char)
| [] => none
| e :: rest =>
    if e = quotationMark ∨ e = backslash ∨ e = '/' then
      some (e, rest)
    else if e = 'b' then
      some (Char.ofNat 8, rest)
    else if e = 'f' then
      some (Char.ofNat 12, rest)
    else if e = 'n' then
      some (Char.ofNat 10, rest)
    else if e = 'r' then
      some (Char.ofNat 13, rest)
    else if e = 't' then
      some (Char.ofNat 9, rest)
    else if e = 'u' then
      codePoint rest
    else
      none

/- One character of a string, as it is written. -/
def unescape : List Char → Option (Char × List Char)
| [] => none
| c :: rest =>
    if c = backslash then
      escaped rest
    else if c.toNat < 32 then
      none
    else
      some (c, rest)

/- A string after its opening quotation mark. -/
def readString : Nat → List Char → Option (List Char × List Char)
| 0, _ => none
| _ + 1, [] => none
| fuel + 1, c :: rest =>
    if c = quotationMark then
      some ([], rest)
    else
      match unescape (c :: rest) with
      | none => none
      | some (d, rest) =>
          (readString fuel rest).map
            (fun read => (d :: read.1, read.2))

def string (text : List Char) : Option (String × List Char) :=
  (readString (text.length + 1) text).map
    (fun read => (String.ofList read.1, read.2))

end Reader

end Json

end SentinelCommand

--------------------
-- Numbers
--------------------

namespace SentinelCommand

namespace Json

namespace Reader

/- A run of digits that is not empty, and what follows it. -/
def digits (text : List Char) : Option (List Char × List Char) :=
  if text.takeWhile Char.isDigit = [] then
    none
  else
    some (text.takeWhile Char.isDigit,
      text.dropWhile Char.isDigit)

def minus : List Char → List Char × List Char
| [] => ([], [])
| c :: rest => if c = '-' then (['-'], rest) else ([], c :: rest)

/- The integer part: no zero leads another digit. -/
def whole (text : List Char) : Option (List Char × List Char) :=
  match digits text with
  | some ('0' :: _ :: _, _) => none
  | read => read

def fraction : List Char → Option (List Char × List Char)
| [] => some ([], [])
| c :: rest =>
    if c = '.' then
      (digits rest).map (fun read => ('.' :: read.1, read.2))
    else
      some ([], c :: rest)

def exponent : List Char → Option (List Char × List Char)
| [] => some ([], [])
| c :: rest =>
    if c = 'e' ∨ c = 'E' then
      let (sign, rest) :=
        match rest with
        | '+' :: rest => (['+'], rest)
        | '-' :: rest => (['-'], rest)
        | rest => ([], rest)
      (digits rest).map
        (fun read => (c :: sign ++ read.1, read.2))
    else
      some ([], c :: rest)

def signed (sign digits : List Char) : Int :=
  if sign = [] then
    (Nat.ofDigitChars 10 digits 0 : Int)
  else
    -(Nat.ofDigitChars 10 digits 0 : Int)

def number (text : List Char) : Option (Json × List Char) :=
  let (sign, rest) := minus text
  match whole rest with
  | none => none
  | some (digits, rest) =>
      match fraction rest with
      | none => none
      | some (fraction, rest) =>
          match exponent rest with
          | none => none
          | some (exponent, rest) =>
              if fraction = [] ∧ exponent = [] then
                some (.integer (signed sign digits), rest)
              else
                some
                  (.float
                    (String.ofList
                      (sign ++ digits ++ fraction ++ exponent)),
                    rest)

end Reader

end Json

end SentinelCommand

--------------------
-- Values
--------------------

namespace SentinelCommand

namespace Json

namespace Reader

/- A literal name that the text starts with. -/
def word (name : String) (value : Json) (text : List Char) :
    Option (Json × List Char) :=
  if name.toList.isPrefixOf text then
    some (value, text.drop name.toList.length)
  else
    none

def leaf (text : List Char) : Option (Json × List Char) :=
  word "null" .null text <|> word "true" (.bool true) text <|>
    word "false" (.bool false) text <|> number text

mutual

def readValue : Nat → List Char → Option (Json × List Char)
| 0, _ => none
| fuel + 1, text =>
    match skip text with
    | [] => none
    | c :: rest =>
        if c = quotationMark then
          (string rest).map (fun read => (.string read.1, read.2))
        else if c = '[' then
          if (skip rest).head? = some ']' then
            some (.array [], (skip rest).tail)
          else
            (readItems fuel rest).map
              (fun read => (.array read.1, read.2))
        else if c.toNat = 123 then
          if (skip rest).head?.map Char.toNat = some 125 then
            some (.object [], (skip rest).tail)
          else
            (readFields fuel rest).map
              (fun read => (.object read.1, read.2))
        else
          leaf (c :: rest)

/- The items of an array up to its closing bracket. -/
def readItems :
    Nat → List Char → Option (List Json × List Char)
| 0, _ => none
| fuel + 1, text =>
    match readValue fuel text with
    | none => none
    | some (item, rest) =>
        match skip rest with
        | [] => none
        | c :: rest =>
            if c = ',' then
              (readItems fuel rest).map
                (fun read => (item :: read.1, read.2))
            else if c = ']' then
              some ([item], rest)
            else
              none

/- The fields of an object up to its closing brace. -/
def readFields :
    Nat → List Char → Option (Fields × List Char)
| 0, _ => none
| fuel + 1, text =>
    match skip text with
    | [] => none
    | quote :: rest =>
        if quote ≠ quotationMark then
          none
        else
          match string rest with
          | none => none
          | some (key, rest) =>
              match skip rest with
              | [] => none
              | colon :: rest =>
                  if colon ≠ ':' then
                    none
                  else
                    match readValue fuel rest with
                    | none => none
                    | some (value, rest) =>
                        match skip rest with
                        | [] => none
                        | c :: rest =>
                            if c = ',' then
                              (readFields fuel rest).map
                                (fun read =>
                                  ((key, value) :: read.1,
                                    read.2))
                            else if c.toNat = 125 then
                              some ([(key, value)], rest)
                            else
                              none

end

/- One value, and nothing but white space around it. -/
def parse (text : List Char) : Option Json :=
  match readValue (text.length + 1) text with
  | none => none
  | some (value, rest) =>
      if skip rest = [] then
        some value
      else
        none

end Reader

end Json

end SentinelCommand
