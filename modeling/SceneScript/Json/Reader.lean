import SceneScript.Json.Value
/-!
Reads JSON texts. A reader takes characters from the front and returns what is left; nothing but
spaces, tabs and line ends may surround a value.
-/

namespace SceneScript.Json

namespace Reader

def isSpace (c : Char) : Bool := c = ' ' || c = '\n' || c = '\t' || c = '\r'

def skipSpace (cs : List Char) : List Char := cs.dropWhile isSpace

def literal? : List Char → List Char → Option (List Char)
  | [], cs => some cs
  | _ :: _, [] => none
  | l :: ls, c :: cs => if l = c then literal? ls cs else none

/-! ### Texts -/

def hexValue? (c : Char) : Option Nat :=
  if '0' ≤ c ∧ c ≤ '9' then some (c.toNat - '0'.toNat)
  else if 'a' ≤ c ∧ c ≤ 'f' then some (c.toNat - 'a'.toNat + 10)
  else if 'A' ≤ c ∧ c ≤ 'F' then some (c.toNat - 'A'.toNat + 10)
  else none

def unit? : List Char → Option (Nat × List Char)
  | a :: b :: c :: d :: rest => do
    let a ← hexValue? a
    let b ← hexValue? b
    let c ← hexValue? c
    let d ← hexValue? d
    pure (((a * 16 + b) * 16 + c) * 16 + d, rest)
  | _ => none

def isHighSurrogate (n : Nat) : Bool := 0xd800 ≤ n && n < 0xdc00

def isLowSurrogate (n : Nat) : Bool := 0xdc00 ≤ n && n < 0xe000

def pair (high low : Nat) : Char := Char.ofNat (0x10000 + (high - 0xd800) * 0x400 + (low - 0xdc00))

def shortEscape? : Char → Option Char
  | '"' => some '"'
  | '\\' => some '\\'
  | '/' => some '/'
  | 'b' => some '\x08'
  | 'f' => some '\x0c'
  | 'n' => some '\n'
  | 'r' => some '\r'
  | 't' => some '\t'
  | _ => none

/-- The rest of a text after its opening quote. `chars` holds the text so far, last character first,
or nothing once a surrogate stood alone. -/
def textBody : Nat → List Char → Option (List Char) → Option (Option String × List Char)
  | 0, _, _ => none
  | _ + 1, [], _ => none
  | _ + 1, '"' :: rest, chars =>
    some (chars.map fun l => String.ofList l.reverse, rest)
  | n + 1, '\\' :: 'u' :: rest, chars =>
    match unit? rest with
    | none => none
    | some (high, rest) =>
      if isLowSurrogate high then textBody n rest none
      else if isHighSurrogate high then
        match rest with
        | '\\' :: 'u' :: rest' =>
          match unit? rest' with
          | some (low, rest'') =>
            if isLowSurrogate low then textBody n rest'' (chars.map (pair high low :: ·))
            else textBody n rest none
          | none => none
        | _ => textBody n rest none
      else textBody n rest (chars.map (Char.ofNat high :: ·))
  | n + 1, '\\' :: c :: rest, chars =>
    match shortEscape? c with
    | some e => textBody n rest (chars.map (e :: ·))
    | none => none
  | n + 1, c :: rest, chars =>
    if c.toNat < 0x20 then none else textBody n rest (chars.map (c :: ·))

def text? (cs : List Char) : Option (Option String × List Char) :=
  textBody (cs.length + 1) cs (some [])

/-! ### Numbers -/

def digit? (c : Char) : Option Nat :=
  if '0' ≤ c ∧ c ≤ '9' then some (c.toNat - '0'.toNat) else none

def digits (cs : List Char) : List Char × List Char :=
  (cs.takeWhile fun c => (digit? c).isSome, cs.dropWhile fun c => (digit? c).isSome)

def digitValue (c : Char) : Nat := (digit? c).getD 0

/-- Takes digits into a significand as long as it stays below 2^64; the rest are digits too many. -/
def gather : Nat → List Char → Nat × List Char
  | n, [] => (n, [])
  | n, c :: rest =>
    if n * 10 + digitValue c < natLimit then gather (n * 10 + digitValue c) rest else (n, c :: rest)

def valueOf (ds : List Char) : Nat := ds.foldl (fun n c => n * 10 + digitValue c) 0

def exponentLimit : Nat := Nat.pow 2 31

def real (negative : Bool) (whole fraction : List Char) (exponent : Option (Bool × List Char)) :
    Number :=
  let (significand, surplus) := gather 0 whole
  let (significand, unused) := gather significand fraction
  let places : Int := surplus.length - (fraction.length - unused.length : Nat)
  match exponent with
  | none => .ofScale negative significand places
  | some (down, ds) =>
    let e := valueOf ds
    if exponentLimit ≤ e then
      if significand ≠ 0 ∧ !down then .tooLarge
      else .real (if negative then -0.0 else 0.0)
    else .ofScale negative significand (if down then places - e else places + e)

def integer (negative : Bool) (whole : List Char) : Number :=
  let n := valueOf whole
  if n < natLimit then .ofInteger negative n else real negative whole [] none

def exponent? (cs : List Char) : Option ((Bool × List Char) × List Char) :=
  let (down, cs) :=
    match cs with
    | '+' :: rest => (false, rest)
    | '-' :: rest => (true, rest)
    | _ => (false, cs)
  match digits cs with
  | ([], _) => none
  | (ds, rest) => some ((down, ds), rest)

def afterFraction (negative : Bool) (whole fraction cs : List Char) : Option (Number × List Char) :=
  match cs with
  | 'e' :: rest | 'E' :: rest =>
    (exponent? rest).map fun (e, rest) => (real negative whole fraction (some e), rest)
  | _ =>
    if fraction.isEmpty then some (integer negative whole, cs)
    else some (real negative whole fraction none, cs)

def afterWhole (negative : Bool) (whole cs : List Char) : Option (Number × List Char) :=
  match cs with
  | '.' :: rest =>
    match digits rest with
    | ([], _) => none
    | (fraction, rest) => afterFraction negative whole fraction rest
  | _ => afterFraction negative whole [] cs

def magnitude? (negative : Bool) (cs : List Char) : Option (Number × List Char) :=
  match digits cs with
  | ([], _) => none
  | ('0' :: _ :: _, _) => none
  | (whole, rest) => afterWhole negative whole rest

def number? : List Char → Option (Number × List Char)
  | '-' :: rest => magnitude? true rest
  | cs => magnitude? false cs

/-! ### Values -/

mutual

/-- A value, with spaces before it. `n` bounds how often the reader descends. -/
def value? : Nat → List Char → Option (Json × List Char)
  | 0, _ => none
  | n + 1, cs =>
    match skipSpace cs with
    | 'n' :: rest => (literal? "ull".toList rest).map fun rest => (.null, rest)
    | 't' :: rest => (literal? "rue".toList rest).map fun rest => (.bool true, rest)
    | 'f' :: rest => (literal? "alse".toList rest).map fun rest => (.bool false, rest)
    | '"' :: rest => (text? rest).map fun (s, rest) => (.text s, rest)
    | '[' :: rest =>
      match skipSpace rest with
      | ']' :: rest => some (.list [], rest)
      | rest => (items? n rest).map fun (l, rest) => (.list l, rest)
    | '\x7b' :: rest =>
      match skipSpace rest with
      | '\x7d' :: rest => some (.object [], rest)
      | rest => (fields? n rest).map fun (l, rest) => (.object l, rest)
    | rest => (number? rest).map fun (x, rest) => (.number x, rest)

def items? : Nat → List Char → Option (List Json × List Char)
  | 0, _ => none
  | n + 1, cs =>
    match value? n cs with
    | none => none
    | some (v, rest) =>
      match skipSpace rest with
      | ',' :: rest => (items? n rest).map fun (l, rest) => (v :: l, rest)
      | ']' :: rest => some ([v], rest)
      | _ => none

def fields? : Nat → List Char → Option (List (Option String × Json) × List Char)
  | 0, _ => none
  | n + 1, cs =>
    match skipSpace cs with
    | '"' :: rest =>
      match text? rest with
      | none => none
      | some (key, rest) =>
        match skipSpace rest with
        | ':' :: rest =>
          match value? n rest with
          | none => none
          | some (v, rest) =>
            match skipSpace rest with
            | ',' :: rest => (fields? n rest).map fun (l, rest) => ((key, v) :: l, rest)
            | '\x7d' :: rest => some ([(key, v)], rest)
            | _ => none
        | _ => none
    | _ => none

end

end Reader

def read? (s : String) : Option Json :=
  let cs := s.toList
  match Reader.value? (2 * cs.length + 2) cs with
  | some (v, rest) => if (Reader.skipSpace rest).isEmpty then some v else none
  | none => none

end SceneScript.Json
