import Leasehold.Text.Digits

/-!
# Addresses of web hooks

A request can be made to an address of the schemes `http` and `https` that names a host. The
address is read as browsers do: blanks around it and ends of lines within it do not count,
backslashes are slashes, and the slashes after the scheme may be missing.

* `Leasehold.Address.canReceive` – whether a request can be made to an address;
* `Leasehold.Address.isHost` – names, and addresses of version four or six;
* `Leasehold.Address.canName` – whether a text can stand in a header of a request.
-/

namespace Leasehold.Address

open Text

/-! ### Numbers in hosts -/

/-- A hexadecimal digit. -/
def isHex (c : Char) : Bool := (hexValue? c).isSome

/-- Digits in a base of at most sixteen. -/
def inBase? (base : Nat) (ds : List Char) : Option Nat :=
  (ds.mapM fun c => (hexValue? c).filter (· < base)).map (·.foldl (fun n d => n * base + d) 0)

/-- A part of a host in numbers: in base ten, after a zero in base eight, and after a zero and
an `x` in base sixteen. -/
def part? (s : List Char) : Option Nat :=
  match s with
  | [] => none
  | ['0'] => some 0
  | '0' :: c :: ds => if c = 'x' || c = 'X' then inBase? 16 ds else inBase? 8 (c :: ds)
  | ds => inBase? 10 ds

/-- Cuts a text at a character. -/
def split (mark : Char) (s : List Char) : List (List Char) :=
  s.foldr
    (fun c parts =>
      match parts with
      | part :: rest => if c = mark then [] :: part :: rest else (c :: part) :: rest
      | [] => [[c]])
    [[]]

/-- The parts of a name, without an empty one at the end. -/
def labels (host : List Char) : List (List Char) :=
  let parts := split '.' host
  if 1 < parts.length ∧ parts.getLast? = some [] then parts.dropLast else parts

/-- Whether a name ends in a number and so has to be an address of version four. -/
def endsInNumber (host : List Char) : Bool :=
  match (labels host).getLast? with
  | some last => (last ≠ [] && last.all isDigit) || (part? last).isSome
  | none => false

/-- An address of version four: up to four numbers, the last of which fills the places of those
that are missing. -/
def isVersionFour (host : List Char) : Bool :=
  let parts := labels host
  match parts.mapM part? with
  | none => false
  | some ns =>
    ns.length ≤ 4 && ns.dropLast.all (· ≤ 255) &&
      (ns.getLast?.any fun last => last < Nat.pow 256 (5 - ns.length))

/-- A number up to 255 without leading zeros. -/
def isByte (s : List Char) : Bool :=
  s ≠ [] && s.all isDigit && ofDigits s ≤ 255 && (s.head? ≠ some '0' || s.length = 1)

/-- How many of the eight places of an address of version six some groups take, if they are well
formed. The last two places may be written as four numbers. -/
def groupPlaces? (groups : List (List Char)) : Option Nat :=
  match groups with
  | [] => some 0
  | [last] =>
    if last.contains '.' then
      let parts := split '.' last
      if parts.length = 4 && parts.all isByte then some 2 else none
    else if last ≠ [] && last.length ≤ 4 && last.all isHex then some 1
    else none
  | g :: gs =>
    if g ≠ [] && g.length ≤ 4 && g.all isHex then (groupPlaces? gs).map (· + 1) else none

/-- An address of version six: eight groups, some of which may be left out between two colons. -/
def isVersionSix (host : List Char) : Bool :=
  let rec cut (before : List Char) : List Char → Option (List Char × List Char)
    | ':' :: ':' :: after => some (before.reverse, after)
    | c :: rest => cut (c :: before) rest
    | [] => none
  let places (s : List Char) : Option Nat := if s = [] then some 0 else groupPlaces? (split ':' s)
  match cut [] host with
  | none => places host = some 8
  | some (before, after) =>
    match places before, places after with
    | some m, some n => m + n ≤ 7 && !before.contains '.'
    | _, _ => false

/-! ### Hosts -/

/-- Characters that no name of a host has. -/
def isForbidden (c : Char) : Bool :=
  c.toNat ≤ 32 || c.toNat = 127 || "#/:<>?@[\\]^|%".toList.contains c

/-- A name with its percent signs decoded. -/
def decoded (s : List Char) : List Char :=
  match s with
  | '%' :: a :: b :: rest =>
    match hexValue? a, hexValue? b with
    | some high, some low => Char.ofNat (16 * high + low) :: decoded rest
    | _, _ => '%' :: decoded (a :: b :: rest)
  | c :: rest => c :: decoded rest
  | [] => []

/-- **Whether a text is a host.** -/
def isHost (s : List Char) : Bool :=
  match s with
  | [] => false
  | '[' :: rest => rest.getLast? = some ']' && isVersionSix rest.dropLast
  | s =>
    let name := decoded s
    !name.any isForbidden && (!endsInNumber name || isVersionFour name)

/-- The host of an authority and what follows its colon, absent without a colon. -/
def splitColon (s : List Char) : List Char × Option (List Char) :=
  let tail := s.reverse.takeWhile fun c => c ≠ ':' && c ≠ ']'
  match s.reverse.drop tail.length with
  | ':' :: host => (host.reverse, some tail.reverse)
  | _ => (s, none)

/-- Whether an authority names a host, with nothing or a number of 16 bits after its colon. -/
def isAuthority (s : List Char) : Bool :=
  let host := (s.reverse.takeWhile (· ≠ '@')).reverse
  let (name, number) := splitColon host
  isHost name && number.all fun ds => ds.all isDigit && ofDigits ds ≤ 65535

/-! ### Addresses -/

/-- An address without blanks and controls at its ends and without tabs and ends of lines. -/
def stripped (s : List Char) : List Char :=
  let isEnd := fun (c : Char) => c.toNat ≤ 32
  let s := ((s.dropWhile isEnd).reverse.dropWhile isEnd).reverse
  s.filter fun c => c ≠ '\t' && c ≠ '\n' && c ≠ '\r'

/-- **Whether a request can be made to an address.** -/
def canReceive (url : String) : Bool :=
  let s := stripped url.toList
  let scheme := (s.takeWhile (· ≠ ':')).map Char.toLower
  if scheme = "http".toList ∨ scheme = "https".toList then
    match s.drop scheme.length with
    | ':' :: rest =>
      let rest := rest.dropWhile fun c => c = '/' || c = '\\'
      isAuthority (rest.takeWhile fun c => c ≠ '/' && c ≠ '\\' && c ≠ '?' && c ≠ '#')
    | _ => false
  else false

/-- **Whether a text can stand in a header**: it has no control characters but the tab. -/
def canName (s : String) : Bool :=
  s.toList.all fun c => c = '\t' || (32 ≤ c.toNat && c.toNat ≠ 127)

end Leasehold.Address
