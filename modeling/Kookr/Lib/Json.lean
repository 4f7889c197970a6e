import Mathlib.Data.List.Basic

/-! JSON values, `JSON.stringify` and `JSON.parse` over characters. An object keeps its
members in order. A number is kept as the literal that prints it, so `stringify` writes
it and `parse` reads it without a detour through floating point. Lone surrogates have
no character of their own and are read as U+FFFD. -/

namespace Kookr.Lib

def isNumChar (c : Char) : Bool :=
  c.isDigit || c == '-' || c == '+' || c == '.' || c == 'e' || c == 'E'

namespace NumGrammar

def digits1 : List Char → Bool
  | [] => false
  | c :: cs => c.isDigit && cs.all Char.isDigit

def exponent : List Char → Bool
  | [] => true
  | e :: '+' :: cs => (e == 'e' || e == 'E') && digits1 cs
  | e :: '-' :: cs => (e == 'e' || e == 'E') && digits1 cs
  | e :: cs => (e == 'e' || e == 'E') && digits1 cs

def fraction : List Char → Bool
  | '.' :: d :: cs => d.isDigit && exponent (cs.dropWhile Char.isDigit)
  | cs => exponent cs

def integer : List Char → Bool
  | '0' :: cs => fraction cs
  | c :: cs => c.isDigit && fraction (cs.dropWhile Char.isDigit)
  | [] => false

def number : List Char → Bool
  | '-' :: cs => integer cs
  | cs => integer cs

end NumGrammar

/-- The number literals of JSON. -/
structure NumLit where
  text : List Char
  chars : text.all isNumChar = true
  valid : NumGrammar.number text = true
  deriving DecidableEq, Repr

inductive Json where
  | null
  | bool (b : Bool)
  | num (n : NumLit)
  | str (s : String)
  | arr (items : List Json)
  | obj (members : List (String × Json))

namespace Json

def hexDigit (n : ℕ) : Char := if n < 10 then Char.ofNat (48 + n) else Char.ofNat (87 + n)

def hexVal (c : Char) : Option ℕ :=
  let n := c.toNat
  if 48 ≤ n ∧ n ≤ 57 then some (n - 48)
  else if 97 ≤ n ∧ n ≤ 102 then some (n - 87)
  else if 65 ≤ n ∧ n ≤ 70 then some (n - 55)
  else none

/-- `QuoteJSONString` for one character. -/
def escChar (c : Char) : List Char :=
  if c = '"' then ['\\', '"']
  else if c = '\\' then ['\\', '\\']
  else if c.toNat = 8 then ['\\', 'b']
  else if c.toNat = 9 then ['\\', 't']
  else if c.toNat = 10 then ['\\', 'n']
  else if c.toNat = 12 then ['\\', 'f']
  else if c.toNat = 13 then ['\\', 'r']
  else if c.toNat < 32 then
    ['\\', 'u', '0', '0', hexDigit (c.toNat / 16), hexDigit (c.toNat % 16)]
  else [c]

def quote (s : List Char) : List Char := '"' :: s.flatMap escChar ++ ['"']

mutual
def stringify : Json → List Char
  | .null => ['n', 'u', 'l', 'l']
  | .bool true => ['t', 'r', 'u', 'e']
  | .bool false => ['f', 'a', 'l', 's', 'e']
  | .num n => n.text
  | .str s => quote s.toList
  | .arr items => '[' :: stringifyItems items ++ [']']
  | .obj members => '\x7b' :: stringifyMembers members ++ ['\x7d']

def stringifyItems : List Json → List Char
  | [] => []
  | x :: xs => stringify x ++ stringifyMoreItems xs

def stringifyMoreItems : List Json → List Char
  | [] => []
  | x :: xs => ',' :: stringify x ++ stringifyMoreItems xs

def stringifyMembers : List (String × Json) → List Char
  | [] => []
  | m :: ms => stringifyMember m ++ stringifyMoreMembers ms

def stringifyMoreMembers : List (String × Json) → List Char
  | [] => []
  | m :: ms => ',' :: stringifyMember m ++ stringifyMoreMembers ms

def stringifyMember : String × Json → List Char
  | (k, v) => quote k.toList ++ ':' :: stringify v
end

def isWs (c : Char) : Bool := c == ' ' || c == '\t' || c == '\n' || c == '\r'

def skipWs (cs : List Char) : List Char := cs.dropWhile isWs

def hex4 (a b c d : Char) : Option ℕ := do
  let a ← hexVal a
  let b ← hexVal b
  let c ← hexVal c
  let d ← hexVal d
  return ((a * 16 + b) * 16 + c) * 16 + d

def unescape (c : Char) : Option Char :=
  match c with
  | '"' => some '"'
  | '\\' => some '\\'
  | '/' => some '/'
  | 'b' => some (Char.ofNat 8)
  | 't' => some '\t'
  | 'n' => some '\n'
  | 'f' => some (Char.ofNat 12)
  | 'r' => some '\r'
  | _ => none

/-- The code units of a string body, up to its closing quote. -/
def parseUnits : List Char → Option (List ℕ × List Char)
  | [] => none
  | '"' :: rest => some ([], rest)
  | '\\' :: 'u' :: a :: b :: c :: d :: rest =>
    match hex4 a b c d with
    | none => none
    | some n => (parseUnits rest).map fun p => (n :: p.1, p.2)
  | '\\' :: e :: rest =>
    match unescape e with
    | none => none
    | some c => (parseUnits rest).map fun p => (c.toNat :: p.1, p.2)
  | c :: rest =>
    if c.toNat < 32 ∨ c = '\\' then none
    else (parseUnits rest).map fun p => (c.toNat :: p.1, p.2)

def ofUnit (n : ℕ) : Char := if 0xD800 ≤ n ∧ n < 0xE000 then Char.ofNat 0xFFFD else Char.ofNat n

/-- Join surrogate pairs. -/
def joinUnits : List ℕ → List Char
  | [] => []
  | [n] => [ofUnit n]
  | n :: n' :: ns =>
    if 0xD800 ≤ n ∧ n < 0xDC00 ∧ 0xDC00 ≤ n' ∧ n' < 0xE000 then
      Char.ofNat (0x10000 + (n - 0xD800) * 1024 + (n' - 0xDC00)) :: joinUnits ns
    else ofUnit n :: joinUnits (n' :: ns)

def parseString (cs : List Char) : Option (List Char × List Char) :=
  (parseUnits cs).map fun p => (joinUnits p.1, p.2)

def parseNumber (cs : List Char) : Option (Json × List Char) :=
  let text := cs.takeWhile isNumChar
  if h : text.all isNumChar = true ∧ NumGrammar.number text = true then
    some (.num ⟨text, h.1, h.2⟩, cs.dropWhile isNumChar)
  else none

mutual
def parseValue : ℕ → List Char → Option (Json × List Char)
  | 0, _ => none
  | fuel + 1, cs =>
    match skipWs cs with
    | [] => none
    | c :: rest =>
      if c = 'n' then
        if rest.take 3 = ['u', 'l', 'l'] then some (.null, rest.drop 3) else none
      else if c = 't' then
        if rest.take 3 = ['r', 'u', 'e'] then some (.bool true, rest.drop 3) else none
      else if c = 'f' then
        if rest.take 4 = ['a', 'l', 's', 'e'] then some (.bool false, rest.drop 4) else none
      else if c = '"' then (parseString rest).map fun p => (.str (String.ofList p.1), p.2)
      else if c = '[' then
        if (skipWs rest).head? = some ']' then some (.arr [], (skipWs rest).tail)
        else (parseItems fuel rest).map fun p => (.arr p.1, p.2)
      else if c = '\x7b' then
        if (skipWs rest).head? = some '\x7d' then some (.obj [], (skipWs rest).tail)
        else (parseMembers fuel rest).map fun p => (.obj p.1, p.2)
      else parseNumber (c :: rest)

def parseItems : ℕ → List Char → Option (List Json × List Char)
  | 0, _ => none
  | fuel + 1, cs =>
    match parseValue fuel cs with
    | none => none
    | some (v, rest) =>
      match skipWs rest with
      | [] => none
      | c :: rest' =>
        if c = ',' then (parseItems fuel rest').map fun p => (v :: p.1, p.2)
        else if c = ']' then some ([v], rest')
        else none

def parseMembers : ℕ → List Char → Option (List (String × Json) × List Char)
  | 0, _ => none
  | fuel + 1, cs =>
    match parseMember fuel cs with
    | none => none
    | some (m, rest) =>
      match skipWs rest with
      | [] => none
      | c :: rest' =>
        if c = ',' then (parseMembers fuel rest').map fun p => (m :: p.1, p.2)
        else if c = '\x7d' then some ([m], rest')
        else none

def parseMember : ℕ → List Char → Option ((String × Json) × List Char)
  | 0, _ => none
  | fuel + 1, cs =>
    match skipWs cs with
    | [] => none
    | c :: rest =>
      if c = '"' then
        match parseString rest with
        | none => none
        | some (k, rest') =>
          match skipWs rest' with
          | [] => none
          | c' :: rest'' =>
            if c' = ':' then
              (parseValue fuel rest'').map fun p => ((String.ofList k, p.1), p.2)
            else none
      else none
end

/-- `JSON.parse`; `none` is a `SyntaxError`. The fuel bounds the number of tokens. -/
def parse (cs : List Char) : Option Json :=
  match parseValue (2 * cs.length + 1) cs with
  | none => none
  | some (v, rest) => if skipWs rest = [] then some v else none

/-- Property access on a parsed object: a repeated key keeps its last value. -/
def lookup (k : String) (members : List (String × Json)) : Option Json :=
  members.foldl (fun acc m => if m.1 = k then some m.2 else acc) none

def get (j : Json) (k : String) : Option Json :=
  match j with
  | .obj members => lookup k members
  | _ => none

def asStr : Json → Option String
  | .str s => some s
  | _ => none

def asNum : Json → Option NumLit
  | .num n => some n
  | _ => none

def asArr : Json → Option (List Json)
  | .arr items => some items
  | _ => none

end Json

/-- A member that `JSON.stringify` drops when its value is `undefined`. -/
def opt (k : String) (v : Option Json) : List (String × Json) := v.toList.map fun j => (k, j)

end Kookr.Lib
