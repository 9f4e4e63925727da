namespace PluginAgent.Utf8

/-- Where UTF-8 ends: the count of good bytes before, and the length of the bad sequence, which is
absent if the bytes end within a character. -/
structure Fault where
  index : Nat
  length : Option Nat
  deriving DecidableEq, Repr

def Fault.message (f : Fault) : String :=
  match f.length with
  | some n => s!"invalid utf-8 sequence of {n} bytes from index {f.index}"
  | none => s!"incomplete utf-8 byte sequence from index {f.index}"

inductive Step where
  | char (c : Char) (width : Nat)
  | bad (length : Option Nat)
  deriving DecidableEq, Repr

def secondAllowed (a b : Nat) : Bool :=
  -- no longer form than needed, no surrogate, and no number beyond the last character
  if a == 0xE0 then 0xA0 ≤ b && b ≤ 0xBF
  else if a == 0xED then 0x80 ≤ b && b ≤ 0x9F
  else if a == 0xF0 then 0x90 ≤ b && b ≤ 0xBF
  else if a == 0xF4 then 0x80 ≤ b && b ≤ 0x8F
  else 0x80 ≤ b && b ≤ 0xBF

def isContinuation (b : Nat) : Bool :=
  0x80 ≤ b && b ≤ 0xBF

def byteAt (bytes : ByteArray) (i : Nat) : Option Nat :=
  if h : i < bytes.size then some bytes[i].toNat else none

def stepTwo (bytes : ByteArray) (i a : Nat) : Step :=
  match byteAt bytes (i + 1) with
  | none => .bad none
  | some b =>
    if isContinuation b then .char (Char.ofNat ((a - 0xC0) * 64 + (b - 0x80))) 2
    else .bad (some 1)

def stepThree (bytes : ByteArray) (i a : Nat) : Step :=
  match byteAt bytes (i + 1) with
  | none => .bad none
  | some b =>
    if !secondAllowed a b then .bad (some 1)
    else match byteAt bytes (i + 2) with
      | none => .bad none
      | some c =>
        if isContinuation c then
          .char (Char.ofNat ((a - 0xE0) * 4096 + (b - 0x80) * 64 + (c - 0x80))) 3
        else .bad (some 2)

def stepFour (bytes : ByteArray) (i a : Nat) : Step :=
  match byteAt bytes (i + 1) with
  | none => .bad none
  | some b =>
    if !secondAllowed a b then .bad (some 1)
    else match byteAt bytes (i + 2) with
      | none => .bad none
      | some c =>
        if !isContinuation c then .bad (some 2)
        else match byteAt bytes (i + 3) with
          | none => .bad none
          | some d =>
            if isContinuation d then
              .char (Char.ofNat ((a - 0xF0) * 262144 + (b - 0x80) * 4096 + (c - 0x80) * 64 +
                (d - 0x80))) 4
            else .bad (some 3)

def stepAt (bytes : ByteArray) (i a : Nat) : Step :=
  if a < 0x80 then .char (Char.ofNat a) 1
  else if 0xC2 ≤ a && a ≤ 0xDF then stepTwo bytes i a
  else if 0xE0 ≤ a && a ≤ 0xEF then stepThree bytes i a
  else if 0xF0 ≤ a && a ≤ 0xF4 then stepFour bytes i a
  else .bad (some 1)

theorem stepAt_width {bytes : ByteArray} {i a : Nat} {c : Char} {w : Nat}
    (h : stepAt bytes i a = .char c w) : 0 < w := by
  simp only [stepAt, stepTwo, stepThree, stepFour] at h
  repeat' split at h
  all_goals first | (injection h with _ hw; omega) | contradiction

def decodeFrom (bytes : ByteArray) (i : Nat) (done : List Char) : Except Fault (List Char) :=
  if h : i < bytes.size then
    match hs : stepAt bytes i bytes[i].toNat with
    | .char c w =>
      have : 0 < w := stepAt_width hs
      decodeFrom bytes (i + w) (c :: done)
    | .bad n => .error ⟨i, n⟩
  else .ok done.reverse
termination_by bytes.size - i

def decode (bytes : ByteArray) : Except Fault (List Char) :=
  decodeFrom bytes 0 []

def lossyFrom (bytes : ByteArray) (i : Nat) (done : List Char) : List Char :=
  if h : i < bytes.size then
    match hs : stepAt bytes i bytes[i].toNat with
    | .char c w =>
      have : 0 < w := stepAt_width hs
      lossyFrom bytes (i + w) (c :: done)
    | .bad none => (Char.ofNat 0xFFFD :: done).reverse
    | .bad (some n) => lossyFrom bytes (i + max n 1) (Char.ofNat 0xFFFD :: done)
  else done.reverse
termination_by bytes.size - i

def decodeLossy (bytes : ByteArray) : String :=
  String.ofList (lossyFrom bytes 0 [])

end PluginAgent.Utf8
