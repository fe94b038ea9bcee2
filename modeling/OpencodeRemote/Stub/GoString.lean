import Mathlib.Data.List.Basic

/-! # Go strings

A Go string is a sequence of bytes. The few functions of `strings` and `strconv` which
the stub calls are given here on byte lists, under Go's names.
-/

namespace OpencodeRemote.Stub

abbrev GoString := List UInt8

/-- An ASCII literal of the source. -/
def lit (s : String) : GoString := s.toList.map fun c => c.toNat.toUInt8

def slash : UInt8 := 47
def star : UInt8 := 42
def dot : UInt8 := 46

namespace Strings

/-- `fmt.Sprintf("%d", n)`. -/
def decimal : Int → GoString
  | .ofNat n => (Nat.toDigits 10 n).map fun c => c.toNat.toUInt8
  | .negSucc n => 45 :: (Nat.toDigits 10 (n + 1)).map fun c => c.toNat.toUInt8

def hasSuffix (s suffix : GoString) : Bool := suffix.isSuffixOf s

def hasPrefix (s front : GoString) : Bool := front.isPrefixOf s

def trimSuffix (s suffix : GoString) : GoString :=
  if hasSuffix s suffix then s.take (s.length - suffix.length) else s

/-- `strings.Index`: where `sub` first occurs. -/
def index (sub : GoString) : GoString → Option Nat
  | [] => if sub = [] then some 0 else none
  | c :: rest => if sub.isPrefixOf (c :: rest) then some 0 else (index sub rest).map (· + 1)

def contains (s sub : GoString) : Bool := (index sub s).isSome

end Strings

end OpencodeRemote.Stub
