import Brigade.Toml.Lexical

/-! Strings: basic ones have escapes, literal ones have not, and each kind has a form of many lines. -/

namespace Brigade.Toml

/-- The character with a code point; there is none for a surrogate. -/
def scalar? (n : Nat) : Option Char :=
  if n < 0xD800 || (0xDFFF < n && n < 0x110000) then some (Char.ofNat n) else none

def escape? : List Char → Option (Char × List Char)
  | 'b' :: rest => some ('\x08', rest)
  | 't' :: rest => some ('\t', rest)
  | 'n' :: rest => some ('\n', rest)
  | 'f' :: rest => some ('\x0c', rest)
  | 'r' :: rest => some ('\r', rest)
  | '"' :: rest => some ('"', rest)
  | '\\' :: rest => some ('\\', rest)
  | 'u' :: rest => do
    let (n, rest) ← Text.hexNumber? 4 0 rest
    return (← scalar? n, rest)
  | 'U' :: rest => do
    let (n, rest) ← Text.hexNumber? 8 0 rest
    return (← scalar? n, rest)
  | _ => none

/-- The text up to the closing quote; `read` holds the characters before, the last first. -/
def basicBody : Nat → List Char → List Char → Option (String × List Char)
  | _, read, '"' :: rest => some (String.ofList read.reverse, rest)
  | fuel + 1, read, '\\' :: rest => do
    let (c, rest) ← escape? rest
    basicBody fuel (c :: read) rest
  | fuel + 1, read, c :: rest => if isPlain c then basicBody fuel (c :: read) rest else none
  | _, _, _ => none

def basic? (cs : List Char) : Option (String × List Char) := basicBody cs.length [] cs

def isLiteralChar (c : Char) : Bool := isPlain c && c ≠ '\''

def literal? (cs : List Char) : Option (String × List Char) :=
  match cs.dropWhile isLiteralChar with
  | '\'' :: rest => some (String.ofList (cs.takeWhile isLiteralChar), rest)
  | _ => none

theorem literal?_append {cs : List Char} (h : ∀ c ∈ cs, isLiteralChar c) (rest : List Char) :
    literal? (cs ++ '\'' :: rest) = some (String.ofList cs, rest) := by
  have hq : isLiteralChar '\'' = false := by decide
  simp [literal?, List.dropWhile_append_of_pos h, List.takeWhile_append_of_pos h, hq]

/-- The quotes after the closing ones that belong to the text, two at most. -/
def extraQuotes (quote : Char) (cs : List Char) : List Char := (cs.take 2).takeWhile (· = quote)

/-- The text up to three closing quotes. A newline is kept as a line feed, and a backslash before a
newline drops all blanks that follow. -/
def longBody (quote : Char) (escapes : Bool) : Nat → List Char → List Char →
    Option (String × List Char)
  | 0, _, _ => none
  | fuel + 1, read, cs =>
    if cs.take 3 = [quote, quote, quote] then
      let extra := extraQuotes quote (cs.drop 3)
      some (String.ofList (extra ++ read).reverse, cs.drop (3 + extra.length))
    else match newline? cs with
      | some rest => longBody quote escapes fuel ('\n' :: read) rest
      | none =>
        match cs with
        | [] => none
        | c :: rest =>
          if escapes && c = '\\' then
            match escape? rest with
            | some (c, rest) => longBody quote escapes fuel (c :: read) rest
            | none => do
              let rest ← newline? (skipSpaces rest)
              longBody quote escapes fuel read (skipBlankLines rest.length rest)
          else if isPlain c then longBody quote escapes fuel (c :: read) rest
          else none

/-- A string of many lines, after the opening quotes; a newline right after them is dropped. -/
def long? (quote : Char) (escapes : Bool) (cs : List Char) : Option (String × List Char) :=
  let body := (newline? cs).getD cs
  longBody quote escapes (body.length + 1) [] body

def string? : List Char → Option (String × List Char)
  | '"' :: '"' :: '"' :: rest => long? '"' true rest
  | '\'' :: '\'' :: '\'' :: rest => long? '\'' false rest
  | '"' :: rest => basic? rest
  | '\'' :: rest => literal? rest
  | _ => none

end Brigade.Toml
