/-!
# Decoding UTF-8

`Utf8.decode` turns bytes into characters up to the first fault. A fault names the bytes that cannot
be decoded: a byte that starts no character, the beginning of a character that does not go on, or a
character that the end of the bytes cuts off. `Utf8.decodeBlocks` does the same for bytes that come
block by block.
-/

set_option autoImplicit false

namespace KeySearch.Utf8

/-- What is wrong with a sequence of bytes. -/
inductive Fault
  | invalidStart
  | invalidContinuation
  | unexpectedEnd
  deriving Repr, DecidableEq

/-- Bytes that are no character, and where they stand. -/
structure Error where
  fault : Fault
  position : Nat
  bytes : List UInt8
  deriving Repr, DecidableEq

/-- The wording of a fault. -/
def Fault.text : Fault → String
  | .invalidStart => "invalid start byte"
  | .invalidContinuation => "invalid continuation byte"
  | .unexpectedEnd => "unexpected end of data"

/-- A byte with two hexadecimal digits. -/
def byteHex (byte : UInt8) : String :=
  String.ofList ['0', 'x', Nat.digitChar (byte.toNat / 16), Nat.digitChar (byte.toNat % 16)]

/-- The message of an error. -/
def Error.message (e : Error) : String :=
  let place :=
    match e.bytes with
    | [byte] => "byte " ++ byteHex byte ++ " in position " ++ toString e.position
    | bytes =>
      "bytes in position " ++ toString e.position ++ "-"
        ++ toString (e.position + bytes.length - 1)
  "'utf-8' codec can't decode " ++ place ++ ": " ++ e.fault.text

/-- Whether a byte continues a character. -/
def isContinuation (byte : UInt8) : Bool := byte.toNat / 64 == 2

/-- Whether a byte may follow the first byte of a character: some first bytes leave out the values
that a shorter form, a surrogate or a number beyond the last code point would need. -/
def mayFollow (first second : UInt8) : Bool :=
  isContinuation second &&
    (if first = 0xe0 then second ≥ 0xa0
     else if first = 0xed then second < 0xa0
     else if first = 0xf0 then second ≥ 0x90
     else if first = 0xf4 then second < 0x90
     else true)

/-- The last six bits of a byte. -/
def payload (byte : UInt8) : Nat := byte.toNat % 64

/-- Adds a character to what the bytes after it decode to. -/
def push (c : Nat) (rest : List Char × Option Error) : List Char × Option Error :=
  (Char.ofNat c :: rest.1, rest.2)

/-- Decodes bytes, the first of which has the given position, up to the first fault. -/
def decodeAt (position : Nat) : List UInt8 → List Char × Option Error
  | [] => ([], none)
  | a :: rest =>
    if a < 0x80 then push a.toNat (decodeAt (position + 1) rest)
    else if a < 0xc2 || 0xf5 ≤ a then ([], some ⟨.invalidStart, position, [a]⟩)
    else
      match rest with
      | [] => ([], some ⟨.unexpectedEnd, position, [a]⟩)
      | b :: rest =>
        if !mayFollow a b then ([], some ⟨.invalidContinuation, position, [a]⟩)
        else if a < 0xe0 then
          push (a.toNat % 32 * 64 + payload b) (decodeAt (position + 2) rest)
        else
          match rest with
          | [] => ([], some ⟨.unexpectedEnd, position, [a, b]⟩)
          | c :: rest =>
            if !isContinuation c then ([], some ⟨.invalidContinuation, position, [a, b]⟩)
            else if a < 0xf0 then
              push ((a.toNat % 16 * 64 + payload b) * 64 + payload c)
                (decodeAt (position + 3) rest)
            else
              match rest with
              | [] => ([], some ⟨.unexpectedEnd, position, [a, b, c]⟩)
              | d :: rest =>
                if !isContinuation d then ([], some ⟨.invalidContinuation, position, [a, b, c]⟩)
                else
                  push (((a.toNat % 8 * 64 + payload b) * 64 + payload c) * 64 + payload d)
                    (decodeAt (position + 4) rest)

/-- The characters before the first fault, and the fault. -/
def decodeSome (bytes : List UInt8) : List Char × Option Error := decodeAt 0 bytes

/-- How many bytes make a block. -/
def blockSize : Nat := 8192

/-- Whether bytes are the first two of three that would encode a surrogate. -/
def opensSurrogate : List UInt8 → Bool
  | [a, b] => a == 0xed && isContinuation b && !mayFollow a b
  | _ => false

/-- Decodes bytes that come in a number of blocks, after some held ones that begin a character. A
character that the end of a block cuts off, be it a surrogate, is held until the next block comes.
Nothing of a block with a fault is decoded, and the place of the fault is counted from the first
byte that was held. -/
def decodeBlocks : Nat → List UInt8 → List UInt8 → List Char × Option Error
  | 0, held, _ => ([], (decodeSome held).2)
  | blocks + 1, held, bytes =>
    let block := held ++ bytes.take blockSize
    let rest := bytes.drop blockSize
    match decodeSome block with
    | (text, none) =>
      let (more, fault) := decodeBlocks blocks [] rest
      (text ++ more, fault)
    | (text, some e) =>
      let cut := block.drop e.position
      if e.fault = .unexpectedEnd || opensSurrogate cut then
        let (more, fault) := decodeBlocks blocks cut rest
        (text ++ more, fault)
      else ([], some e)

/-- The number of blocks that hold some bytes. -/
def blockCount (bytes : List UInt8) : Nat := bytes.length / blockSize + 1

/-- The characters of bytes that are all in order. -/
def decode (bytes : List UInt8) : Except Error (List Char) :=
  match decodeSome bytes with
  | (text, none) => .ok text
  | (_, some e) => .error e

end KeySearch.Utf8
