/-
# UTF-8

The bytes of a text and the text of bytes.  Reading goes character by character: the next
bytes either encode one character, or begin with a longest prefix of an encoding that the
byte after it does not continue, or end inside an encoding.  Strict reading reports the first
fault; lenient reading puts one replacement character in the place of each.
-/
import SchemaRpc.Bytes

namespace SchemaRpc

namespace Utf8

/-- The bytes of a text. -/
def encode (text : String) : Bytes := text.toList.flatMap String.utf8EncodeChar

/-- What stands at the front of a byte string. -/
inductive Front where
  /-- A character and the number of bytes after its first one. -/
  | char (c : Char) (more : Nat)
  /-- A prefix of no encoding, of which the first `length` bytes could still begin one. -/
  | invalid (length : Nat)
  /-- All bytes together begin an encoding that needs more of them. -/
  | incomplete
deriving DecidableEq

/-- Bytes that continue an encoding. -/
def isContinuation (b : UInt8) : Bool := 0x80 ≤ b.toNat && b.toNat ≤ 0xBF

/-- Whether a second byte can follow a first byte that announces more than one: overlong
encodings, surrogates and numbers above U+10FFFF are ruled out here. -/
def secondFits (first second : UInt8) : Bool :=
  if first.toNat = 0xE0 then 0xA0 ≤ second.toNat && second.toNat ≤ 0xBF
  else if first.toNat = 0xED then 0x80 ≤ second.toNat && second.toNat ≤ 0x9F
  else if first.toNat = 0xF0 then 0x90 ≤ second.toNat && second.toNat ≤ 0xBF
  else if first.toNat = 0xF4 then 0x80 ≤ second.toNat && second.toNat ≤ 0x8F
  else isContinuation second

/-- The six payload bits of a continuation byte. -/
def payload (b : UInt8) : Nat := b.toNat % 64

/-- The character, fault or unfinished encoding that begins with `first`. -/
def front (first : UInt8) (rest : Bytes) : Front :=
  if first.toNat < 0x80 then .char (Char.ofNat first.toNat) 0
  else if first.toNat < 0xC2 then .invalid 1
  else if first.toNat < 0xE0 then
    match rest with
    | [] => .incomplete
    | b :: _ =>
      if isContinuation b then .char (Char.ofNat (first.toNat % 32 * 64 + payload b)) 1
      else .invalid 1
  else if first.toNat < 0xF0 then
    match rest with
    | [] => .incomplete
    | b :: rest =>
      if secondFits first b then
        match rest with
        | [] => .incomplete
        | c :: _ =>
          if isContinuation c then
            .char (Char.ofNat ((first.toNat % 16 * 64 + payload b) * 64 + payload c)) 2
          else .invalid 2
      else .invalid 1
  else if first.toNat < 0xF5 then
    match rest with
    | [] => .incomplete
    | b :: rest =>
      if secondFits first b then
        match rest with
        | [] => .incomplete
        | c :: rest =>
          if isContinuation c then
            match rest with
            | [] => .incomplete
            | d :: _ =>
              if isContinuation d then
                .char (Char.ofNat
                  (((first.toNat % 8 * 64 + payload b) * 64 + payload c) * 64 + payload d)) 3
              else .invalid 3
          else .invalid 2
      else .invalid 1
  else .invalid 1

/-- A place at which bytes are not UTF-8. -/
inductive Fault where
  /-- The `length` bytes from `index` on begin an encoding that is not continued. -/
  | invalid (length index : Nat)
  /-- The encoding that begins at `index` is cut off by the end. -/
  | incomplete (index : Nat)
deriving DecidableEq

/-- The wording of a fault. -/
def Fault.message : Fault → String
  | .invalid length index => s!"invalid utf-8 sequence of {length} bytes from index {index}"
  | .incomplete index => s!"incomplete utf-8 byte sequence from index {index}"

/-- The first fault at or after `index`, once the next `skip` bytes are passed over. -/
def firstFaultFrom (index skip : Nat) : Bytes → Option Fault
  | [] => none
  | b :: rest =>
    match skip with
    | skip + 1 => firstFaultFrom (index + 1) skip rest
    | 0 =>
      match front b rest with
      | .char _ more => firstFaultFrom (index + 1) more rest
      | .invalid length => some (.invalid length index)
      | .incomplete => some (.incomplete index)

/-- The first fault of a byte string; none if it is UTF-8. -/
def firstFault (bytes : Bytes) : Option Fault := firstFaultFrom 0 0 bytes

/-- The characters after the next `skip` bytes, put in reverse before `done`; each fault gives
one replacement character. -/
def charsFrom (done : List Char) (skip : Nat) : Bytes → List Char
  | [] => done
  | b :: rest =>
    match skip with
    | skip + 1 => charsFrom done skip rest
    | 0 =>
      match front b rest with
      | .char c more => charsFrom (c :: done) more rest
      | .invalid length => charsFrom ('\uFFFD' :: done) (length - 1) rest
      | .incomplete => '\uFFFD' :: done

/-- The text of a byte string, each fault read as one replacement character. -/
def decodeLossy (bytes : Bytes) : String := String.ofList (charsFrom [] 0 bytes).reverse

/-- The text of a byte string, or its first fault. -/
def decode (bytes : Bytes) : Except Fault String :=
  match firstFault bytes with
  | some fault => .error fault
  | none => .ok (decodeLossy bytes)

end Utf8

end SchemaRpc
