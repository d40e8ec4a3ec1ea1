import GuppyScreen.Lib.Split
import Mathlib.Data.UInt

/-!
# The texts of wpa_supplicant (src/utils/common.c, ctrl_iface.c)

What the vendored wpa_supplicant prints for a name, and what it reads in a
command. A text is a list of bytes without a NUL.
-/

namespace GuppyScreen.Wifi
open Lib

abbrev Bytes : Type := List UInt8

def bytes (s : String) : Bytes := s.toList.map fun c => UInt8.ofNat c.toNat

def quote : UInt8 := 34
def backslash : UInt8 := 92
def tab : UInt8 := 9
def blank : UInt8 := 32
def newline : UInt8 := 10

/-! ### Printing -/

-- One digit of `%02x`.
def hexDigit (n : UInt8) : UInt8 := if n < 10 then 48 + n else 87 + n

/-- One round of the loop of `printf_encode`. -/
def encodeByte (b : UInt8) : Bytes :=
  if b = quote then [backslash, quote]
  else if b = backslash then [backslash, backslash]
  else if b = 27 then [backslash, 101]
  else if b = newline then [backslash, 110]
  else if b = 13 then [backslash, 114]
  else if b = tab then [backslash, 116]
  else if 32 ≤ b ∧ b ≤ 126 then [b]
  else [backslash, 120, hexDigit (b / 16), hexDigit (b % 16)]

/-- `printf_encode` into a buffer of `room` bytes: it stops where the longest
escape and the NUL would no longer fit. -/
def printfEncode : ℕ → Bytes → Bytes
  | _, [] => []
  | room, b :: bs =>
    if room ≤ 4 then [] else encodeByte b ++ printfEncode (room - (encodeByte b).length) bs

def ssidMaxLen : ℕ := 32

/-- `wpa_ssid_txt`. -/
def ssidTxt (ssid : Bytes) : Bytes := printfEncode (ssidMaxLen * 4 + 1) ssid

/-! ### Reading -/

def hex2num (c : UInt8) : Option UInt8 :=
  if 48 ≤ c ∧ c ≤ 57 then some (c - 48)
  else if 97 ≤ c ∧ c ≤ 102 then some (c - 87)
  else if 65 ≤ c ∧ c ≤ 70 then some (c - 55)
  else none

def hexstr2bin : Bytes → Option Bytes
  | [] => some []
  | [_] => none
  | a :: b :: rest =>
    match hex2num a, hex2num b, hexstr2bin rest with
    | some x, some y, some bs => some ((x * 16 + y) :: bs)
    | _, _, _ => none

def isOctal (c : UInt8) : Bool := decide (48 ≤ c) && decide (c ≤ 55)

-- Up to three octal digits, the first one read already.
def octal (d : UInt8) : Bytes → UInt8 × Bytes
  | a :: b :: rest =>
    if isOctal a then
      if isOctal b then (((d - 48) * 8 + (a - 48)) * 8 + (b - 48), rest)
      else ((d - 48) * 8 + (a - 48), b :: rest)
    else (d - 48, a :: b :: rest)
  | [a] => if isOctal a then ((d - 48) * 8 + (a - 48), []) else (d - 48, [a])
  | [] => (d - 48, [])

/-- What follows a backslash: the byte it stands for, if any, and the rest. -/
def decodeEscape : Bytes → Option UInt8 × Bytes
  | [] => (none, [])
  | c :: rest =>
    if c = backslash then (some backslash, rest)
    else if c = quote then (some quote, rest)
    else if c = 110 then (some newline, rest)
    else if c = 114 then (some 13, rest)
    else if c = 116 then (some tab, rest)
    else if c = 101 then (some 27, rest)
    else if c = 120 then
      match rest with
      | a :: b :: more =>
        match hex2num a, hex2num b with
        | some x, some y => (some (x * 16 + y), more)
        | some x, none => (some x, b :: more)
        | none, _ => (none, rest)
      | [a] => (hex2num a, if (hex2num a).isSome then [] else [a])
      | [] => (none, [])
    else if isOctal c then ((some (octal c rest).1), (octal c rest).2)
    else (none, c :: rest)

/-- `printf_decode` of a text of at most `fuel` bytes. The buffer the caller gives
it has room for all of them. -/
def printfDecode : ℕ → Bytes → Bytes
  | 0, _ => []
  | _, [] => []
  | fuel + 1, c :: rest =>
    if c = backslash then
      (decodeEscape rest).1.toList ++ printfDecode fuel (decodeEscape rest).2
    else c :: printfDecode fuel rest

-- Up to a quote that ends the text, which `strrchr` finds.
def quoted (value : Bytes) : Option Bytes :=
  if value.getLast? = some quote then some value.dropLast else none

/-- `wpa_config_parse_string`. -/
def configParseString : Bytes → Option Bytes
  | [] => hexstr2bin []
  | c :: rest =>
    if c = quote then quoted rest
    else if c = 80 ∧ rest.head? = some quote then
      (quoted rest.tail).map fun text => printfDecode text.length text
    else hexstr2bin (c :: rest)

-- Cut at the first blank, `none` where there is none.
def cut (s : Bytes) : Option (Bytes × Bytes) :=
  let word := s.takeWhile (· ≠ blank)
  match s.drop word.length with
  | [] => none
  | _ :: rest => some (word, rest)

/-- The arguments of a SET_NETWORK: id, name and value. -/
def setNetworkArgs (command : Bytes) : Option (Bytes × Bytes × Bytes) :=
  if (bytes "SET_NETWORK ").isPrefixOf command then
    (cut (command.drop 12)).bind fun (id, rest) =>
      (cut rest).map fun (name, value) => (id, name, value)
  else none

end GuppyScreen.Wifi
