import SheetFill.Archive.Bytes

/-!
# Deflated content

Deflated content is a run of blocks. A stored block holds bytes as they are. In the other blocks
symbols stand for bytes, for the end of the block, or for a repetition of earlier bytes, whose
length and distance follow. Symbols have codes of different lengths. The codes follow from their
lengths: shorter codes come first, and codes of one length are numbered in the order of the symbols.
-/

namespace SheetFill.Archive

/-! ## Codes -/

/-- Codes of symbols. -/
structure Code where
  /-- How many symbols have codes of one bit, of two bits, and so on. -/
  counts : List Nat
  /-- The symbols in the order of their codes. -/
  symbols : Array Nat

namespace Code

/-- The most bits of a code. -/
def maxLength : Nat := 15

/-- The codes of the symbols 0, 1, … from the lengths of their codes; a length of zero means that a
symbol has none. -/
def ofLengths (lengths : List Nat) : Code :=
  let byLength := (List.range maxLength).map fun n =>
    (lengths.zipIdx.filter fun pair => pair.1 == n + 1).map (·.2)
  ⟨byLength.map List.length, byLength.flatten.toArray⟩

/-- Read a symbol bit by bit. `first` is the first code of the present length, `index` its index
among the symbols, and `value` the bits so far. The result holds the symbol and what follows it. -/
def readFrom? (code : Code) (data : ByteArray) (place value first index : Nat) :
    List Nat → Option (Nat × Nat)
  | [] => none
  | count :: counts => do
      let value := value + (← bit? data place)
      if value < first + count then
        (code.symbols[index + (value - first)]?).map fun symbol => (symbol, place + 1)
      else
        code.readFrom? data (place + 1) (2 * value) (2 * (first + count)) (index + count) counts

/-- Read a symbol at a place. -/
def read? (code : Code) (data : ByteArray) (place : Nat) : Option (Nat × Nat) :=
  code.readFrom? data place 0 0 0 code.counts

end Code

/-! ## Repetitions -/

/-- The shortest length of each symbol for a length, and how many bits follow it. -/
def lengthSteps : Array (Nat × Nat) :=
  #[(3, 0), (4, 0), (5, 0), (6, 0), (7, 0), (8, 0), (9, 0), (10, 0), (11, 1), (13, 1), (15, 1),
    (17, 1), (19, 2), (23, 2), (27, 2), (31, 2), (35, 3), (43, 3), (51, 3), (59, 3), (67, 4),
    (83, 4), (99, 4), (115, 4), (131, 5), (163, 5), (195, 5), (227, 5), (258, 0)]

/-- The shortest distance of each symbol for a distance, and how many bits follow it. -/
def distanceSteps : Array (Nat × Nat) :=
  #[(1, 0), (2, 0), (3, 0), (4, 0), (5, 1), (7, 1), (9, 2), (13, 2), (17, 3), (25, 3), (33, 4),
    (49, 4), (65, 5), (97, 5), (129, 6), (193, 6), (257, 7), (385, 7), (513, 8), (769, 8),
    (1025, 9), (1537, 9), (2049, 10), (3073, 10), (4097, 11), (6145, 11), (8193, 12), (12289, 12),
    (16385, 13), (24577, 13)]

/-- The number that a symbol and the bits after it stand for, and the place after them. -/
def readStep? (data : ByteArray) (steps : Array (Nat × Nat)) (symbol place : Nat) :
    Option (Nat × Nat) := do
  let (least, width) ← steps[symbol]?
  let more ← bits? data place width
  some (least + more, place + width)

/-- Bytes with a number of bytes repeated that stand a distance before the end. -/
def repeatBytes (out : ByteArray) (distance : Nat) : Nat → ByteArray
  | 0 => out
  | length + 1 =>
      if h : out.size - distance < out.size then
        repeatBytes (out.push out[out.size - distance]) distance length
      else out

/-! ## Blocks -/

/-- Read the symbols of a block up to its end. Each symbol takes a bit at least, so the number of
bits is enough fuel. -/
def readSymbols? (data : ByteArray) (literals distances : Code) :
    Nat → Nat → ByteArray → Option (Nat × ByteArray)
  | 0, _, _ => none
  | fuel + 1, place, out =>
      match literals.read? data place with
      | none => none
      | some (symbol, place) =>
          if symbol < 256 then
            readSymbols? data literals distances fuel place (out.push symbol.toUInt8)
          else if symbol = 256 then some (place, out)
          else match readStep? data lengthSteps (symbol - 257) place with
            | none => none
            | some (length, place) => match distances.read? data place with
              | none => none
              | some (symbol, place) => match readStep? data distanceSteps symbol place with
                | none => none
                | some (distance, place) =>
                    if out.size < distance then none
                    else readSymbols? data literals distances fuel place
                      (repeatBytes out distance length)

/-- Read a stored block: the rest of the byte is passed over, and the size comes twice, the second
time with its bits flipped. -/
def readStored? (data : ByteArray) (place : Nat) (out : ByteArray) : Option (Nat × ByteArray) := do
  let start := (place + 7) / 8
  let size ← number? data start 2
  let flipped ← number? data (start + 2) 2
  if size + flipped ≠ 0xFFFF then none
  else
    let content ← slice? data (start + 4) size
    some (8 * (start + 4 + size), out ++ content)

/-- The codes of a block that does not bring its own. -/
def fixedCodes : Code × Code :=
  (.ofLengths (List.replicate 144 8 ++ List.replicate 112 9 ++ List.replicate 24 7 ++
      List.replicate 8 8),
    .ofLengths (List.replicate 30 5))

/-- Read the lengths of `count` codes, which have codes themselves, after some that were read, last
one first. Three symbols stand for runs of a length. -/
def readLengths? (data : ByteArray) (code : Code) (count : Nat) :
    Nat → Nat → List Nat → Option (Nat × List Nat)
  | 0, _, _ => none
  | fuel + 1, place, done =>
      if done.length = count then some (place, done.reverse)
      else if count < done.length then none
      else match code.read? data place with
        | none => none
        | some (symbol, place) =>
            if symbol < 16 then readLengths? data code count fuel place (symbol :: done)
            else
              let run : Option (Nat × Nat × Nat) := match symbol, done with
                | 16, last :: _ => some (last, 3, 2)
                | 17, _ => some (0, 3, 3)
                | 18, _ => some (0, 11, 7)
                | _, _ => none
              match run with
              | none => none
              | some (length, least, width) => match bits? data place width with
                | none => none
                | some more => readLengths? data code count fuel (place + width)
                    (List.replicate (least + more) length ++ done)

/-- The order in which the lengths of the codes for lengths are given. -/
def lengthOrder : List Nat := [16, 17, 18, 0, 8, 7, 9, 6, 10, 5, 11, 4, 12, 3, 13, 2, 14, 1, 15]

/-- Read the codes of a block that brings its own. -/
def readCodes? (data : ByteArray) (place : Nat) : Option (Nat × Code × Code) := do
  let literals := 257 + (← bits? data place 5)
  let distances := 1 + (← bits? data (place + 5) 5)
  let given := 4 + (← bits? data (place + 10) 4)
  let lengths ← (List.range given).mapM fun n => bits? data (place + 14 + 3 * n) 3
  let ordered := (List.range 19).map fun symbol =>
    (lengths[lengthOrder.idxOf symbol]?).getD 0
  let (place, lengths) ← readLengths? data (.ofLengths ordered) (literals + distances)
    (literals + distances + 1) (place + 14 + 3 * given) []
  some (place, .ofLengths (lengths.take literals), .ofLengths (lengths.drop literals))

/-- Read blocks up to the last one. Each of them takes three bits at least. -/
def readBlocks? (data : ByteArray) : Nat → Nat → ByteArray → Option ByteArray
  | 0, _, _ => none
  | fuel + 1, place, out => do
      let last ← bit? data place
      let kind ← bits? data (place + 1) 2
      let bits := 8 * data.size
      let (place, out) ← match kind with
        | 0 => readStored? data (place + 3) out
        | 1 => readSymbols? data fixedCodes.1 fixedCodes.2 bits (place + 3) out
        | 2 => do
            let (place, literals, distances) ← readCodes? data (place + 3)
            readSymbols? data literals distances bits place out
        | _ => none
      if last = 1 then some out else readBlocks? data fuel place out

/-- The bytes that deflated content stands for. -/
def inflate? (data : ByteArray) : Option ByteArray :=
  readBlocks? data (8 * data.size) 0 ByteArray.empty

end SheetFill.Archive
