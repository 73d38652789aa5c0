import LineBasic.Text.Quoted

/-! Strict decoding of byte sequences. A sequence that is no character is named by its first
position, the number of bytes it spoils, and what is wrong with it. -/

namespace LineBasic.Text.Utf8

inductive Defect
  | invalidStart
  | invalidContinuation
  | truncated
deriving DecidableEq

def Defect.wording : Defect → String
  | .invalidStart => "invalid start byte"
  | .invalidContinuation => "invalid continuation byte"
  | .truncated => "unexpected end of data"

structure Malformed where
  position : Nat
  count : Nat
  byte : UInt8
  defect : Defect

/-- One character with the bytes after it, or a defect with the number of bytes it spoils. -/
abbrev Decoded := Except (Defect × Nat) (Char × List UInt8)

def isContinuation (b : UInt8) : Bool := 0x80 ≤ b && b < 0xC0

def payload (b : UInt8) : Nat := b.toNat % 64

/-- The second byte of a three byte sequence: no overlong form and no surrogate. -/
def second3 (a b : UInt8) : Bool :=
  isContinuation b && !(a == 0xE0 && b < 0xA0) && !(a == 0xED && 0xA0 ≤ b)

/-- The second byte of a four byte sequence: no overlong form, nothing beyond the last plane. -/
def second4 (a b : UInt8) : Bool :=
  isContinuation b && !(a == 0xF0 && b < 0x90) && !(a == 0xF4 && 0x90 ≤ b)

def tail2 (a : UInt8) : List UInt8 → Decoded
  | [] => .error (.truncated, 1)
  | b :: bs =>
    if isContinuation b then .ok (Char.ofNat ((a.toNat - 0xC0) * 64 + payload b), bs)
    else .error (.invalidContinuation, 1)

def tail3 (a : UInt8) : List UInt8 → Decoded
  | [] => .error (.truncated, 1)
  | b :: bs =>
    if !second3 a b then .error (.invalidContinuation, 1)
    else match bs with
      | [] => .error (.truncated, 2)
      | c :: bs =>
        if isContinuation c then
          .ok (Char.ofNat (((a.toNat - 0xE0) * 64 + payload b) * 64 + payload c), bs)
        else .error (.invalidContinuation, 2)

def tail4 (a : UInt8) : List UInt8 → Decoded
  | [] => .error (.truncated, 1)
  | b :: bs =>
    if !second4 a b then .error (.invalidContinuation, 1)
    else match bs with
      | [] => .error (.truncated, 2)
      | c :: bs =>
        if !isContinuation c then .error (.invalidContinuation, 2)
        else match bs with
          | [] => .error (.truncated, 3)
          | d :: bs =>
            if isContinuation d then
              .ok (Char.ofNat
                ((((a.toNat - 0xF0) * 64 + payload b) * 64 + payload c) * 64 + payload d), bs)
            else .error (.invalidContinuation, 3)

def decodeOne (a : UInt8) (bs : List UInt8) : Decoded :=
  if a < 0x80 then .ok (Char.ofNat a.toNat, bs)
  else if a < 0xC2 then .error (.invalidStart, 1)
  else if a < 0xE0 then tail2 a bs
  else if a < 0xF0 then tail3 a bs
  else if a < 0xF5 then tail4 a bs
  else .error (.invalidStart, 1)

theorem length_le_of_decodeOne {a : UInt8} {bs rest : List UInt8} {c : Char}
    (h : decodeOne a bs = .ok (c, rest)) : rest.length ≤ bs.length := by
  unfold decodeOne tail2 tail3 tail4 at h
  repeat' split at h
  all_goals simp_all <;> omega

/-- Decodes from a position on, where `acc` holds the characters so far in reverse. -/
def decodeFrom (position : Nat) (acc : List Char) (bytes : List UInt8) :
    Except Malformed (List Char) :=
  match bytes with
  | [] => .ok acc.reverse
  | a :: bs =>
    match _h : decodeOne a bs with
    | .error (defect, count) => .error ⟨position, count, a, defect⟩
    | .ok (c, rest) => decodeFrom (position + c.utf8Size) (c :: acc) rest
termination_by bytes.length
decreasing_by
  have := length_le_of_decodeOne _h
  simp only [List.length_cons]
  omega

/-- The text that the bytes spell, or the first place where they spell none. -/
def decode (bytes : List UInt8) : Except Malformed String :=
  (decodeFrom 0 [] bytes).map .ofList

def Malformed.message (m : Malformed) : String :=
  let place := if m.count = 1 then
      "byte 0x" ++ .ofList (hex 2 m.byte.toNat) ++ " in position " ++ toString m.position
    else "bytes in position " ++ toString m.position ++ "-" ++ toString (m.position + m.count - 1)
  "'utf-8' codec can't decode " ++ place ++ ": " ++ m.defect.wording

end LineBasic.Text.Utf8
