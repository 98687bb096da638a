import Landscape.Text.Quoted

/-!
# UTF-8

Bytes become text one character at a time. What is no character is a fault: a byte that starts
none, a byte that continues none, or an end in the middle of one. A fault spans the longest run of
bytes that could still have begun a character. Reading is either strict, with the first fault as
the error, or lenient, with the replacement character for every fault. The other way, a text has
bytes only if all its symbols are characters.
-/

namespace Landscape.Text

/-- What is wrong with a sequence of bytes. -/
inductive Utf8Fault where
  | startByte
  | continuationByte
  | unexpectedEnd
  deriving DecidableEq, Repr

/-- The next item of a sequence of bytes: a character or a fault, with the bytes it takes. -/
inductive Utf8Item where
  | char (c : Char) (size : Nat)
  | fault (kind : Utf8Fault) (size : Nat)

/-- The number of bytes an item takes. -/
def Utf8Item.size : Utf8Item → Nat
  | .char _ n | .fault _ n => n

/-- Whether a byte continues a character. -/
def isContinuation (b : UInt8) : Bool := 0x80 ≤ b && b < 0xc0

/-- The six low bits of a continuation byte. -/
private def lowBits (b : UInt8) : Nat := b.toNat % 64

/--
Whether `b` may follow the first byte: the shortest form is required, and neither a surrogate nor a
code point past the last may arise.
-/
def mayFollow (first b : UInt8) : Bool :=
  isContinuation b &&
    !(first == 0xe0 && b < 0xa0) && !(first == 0xed && 0xa0 ≤ b) &&
    !(first == 0xf0 && b < 0x90) && !(first == 0xf4 && 0x90 ≤ b)

/-- The first item of a non-empty sequence of bytes. -/
def utf8Item (first : UInt8) (rest : List UInt8) : Utf8Item :=
  if first < 0x80 then .char (Char.ofNat first.toNat) 1
  else if first < 0xc2 || 0xf4 < first then .fault .startByte 1
  else
    match rest with
    | [] => .fault .unexpectedEnd 1
    | b :: rest =>
      if !mayFollow first b then .fault .continuationByte 1
      else if first < 0xe0 then
        .char (Char.ofNat (first.toNat % 32 * 64 + lowBits b)) 2
      else
        match rest with
        | [] => .fault .unexpectedEnd 2
        | c :: rest =>
          if !isContinuation c then .fault .continuationByte 2
          else if first < 0xf0 then
            .char (Char.ofNat ((first.toNat % 16 * 64 + lowBits b) * 64 + lowBits c)) 3
          else
            match rest with
            | [] => .fault .unexpectedEnd 3
            | d :: _ =>
              if !isContinuation d then .fault .continuationByte 3
              else
                .char (Char.ofNat (((first.toNat % 8 * 64 + lowBits b) * 64 + lowBits c) * 64
                  + lowBits d)) 4

/-- All items of a sequence of bytes, each with its offset. -/
def utf8Items (offset : Nat) : List UInt8 → List (Nat × Utf8Item)
  | [] => []
  | first :: rest =>
    let item := utf8Item first rest
    (offset, item) :: utf8Items (offset + item.size) (rest.drop (item.size - 1))
termination_by bytes => bytes.length
decreasing_by simp only [List.length_drop, List.length_cons]; omega

/-- A fault and where it stands. -/
structure Utf8Error where
  fault : Utf8Fault
  offset : Nat
  bytes : List UInt8

/-- What a fault is called. -/
def Utf8Fault.message : Utf8Fault → String
  | .startByte => "invalid start byte"
  | .continuationByte => "invalid continuation byte"
  | .unexpectedEnd => "unexpected end of data"

/-- The place and kind of an error in words. -/
def Utf8Error.message (e : Utf8Error) : String :=
  let place :=
    match e.bytes with
    | [b] => "byte 0x" ++ String.ofList (hexDigits 2 b.toNat) ++ " in position " ++ toString e.offset
    | bytes =>
      "bytes in position " ++ toString e.offset ++ "-" ++ toString (e.offset + bytes.length - 1)
  "'utf-8' codec can't decode " ++ place ++ ": " ++ e.fault.message

/-- Decode strictly: the first fault is the error. -/
def decodeUtf8 (bytes : List UInt8) : Except Utf8Error (List Char) :=
  (utf8Items 0 bytes).mapM fun (offset, item) =>
    match item with
    | .char c _ => .ok c
    | .fault fault size => .error ⟨fault, offset, (bytes.drop offset).take size⟩

/-- Decode leniently: every fault becomes a replacement character. -/
def decodeUtf8Lenient (bytes : List UInt8) : List Char :=
  (utf8Items 0 bytes).map fun (_, item) =>
    match item with
    | .char c _ => c
    | .fault _ _ => Char.ofNat 0xfffd

/-- The first halves in a row that keep a text from having bytes, and where they stand. -/
structure HalfError where
  halves : Text
  offset : Nat
  deriving DecidableEq, Repr

/-- The place of halves in words. -/
def HalfError.message (e : HalfError) : String :=
  let place :=
    match e.halves with
    | [s] => "character '" ++ String.ofList (showCode s.code) ++ "' in position " ++ toString e.offset
    | halves =>
      "characters in position " ++ toString e.offset ++ "-" ++ toString (e.offset + halves.length - 1)
  "'utf-8' codec can't encode " ++ place ++ ": surrogates not allowed"

/-- Whether a symbol is a half. -/
def isHalf : Symbol → Bool
  | .char _ => false
  | .half _ => true

/-- The bytes of a text, if all its symbols are characters. -/
def encodeUtf8 (t : Text) : Except HalfError (List UInt8) :=
  match t.chars? with
  | some cs => .ok (cs.flatMap String.utf8EncodeChar)
  | none =>
    let offset := (t.takeWhile (!isHalf ·)).length
    .error ⟨(t.drop offset).takeWhile isHalf, offset⟩

end Landscape.Text
