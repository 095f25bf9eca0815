/-!
UTF-8. A byte sequence is read from the left one character at a time, each in its shortest form
and none of them a surrogate. Where no character can be read, the fault says how many bytes before
it are good and how many of the following belong to the fault.
-/

namespace LoxSyntax.Text.Utf8

/-- The first place where a byte sequence is not UTF-8. -/
structure Fault where
  /-- The number of good bytes before it. -/
  validUpTo : Nat
  /-- The number of bad bytes there, or none if the bytes end inside a character. -/
  badBytes : Option Nat
  deriving DecidableEq, Repr

namespace Fault

def message (fault : Fault) : String :=
  match fault.badBytes with
  | some n => s!"invalid utf-8 sequence of {n} bytes from index {fault.validUpTo}"
  | none => s!"incomplete utf-8 byte sequence from index {fault.validUpTo}"

end Fault

/-- What a first byte asks for. -/
structure Lead where
  /-- The bits of the code point that the first byte holds. -/
  bits : Nat
  tails : Nat
  /-- Bounds of the second byte, which rule out long forms, surrogates and too large values. -/
  low : Nat
  high : Nat

def Lead.ofByte? (b : Nat) : Option Lead :=
  if b < 0x80 then some ⟨b, 0, 0x80, 0xbf⟩
  else if b < 0xc2 then none
  else if b < 0xe0 then some ⟨b - 0xc0, 1, 0x80, 0xbf⟩
  else if b = 0xe0 then some ⟨0, 2, 0xa0, 0xbf⟩
  else if b = 0xed then some ⟨0xd, 2, 0x80, 0x9f⟩
  else if b < 0xf0 then some ⟨b - 0xe0, 2, 0x80, 0xbf⟩
  else if b = 0xf0 then some ⟨0, 3, 0x90, 0xbf⟩
  else if b < 0xf4 then some ⟨b - 0xf0, 3, 0x80, 0xbf⟩
  else if b = 0xf4 then some ⟨4, 3, 0x80, 0x8f⟩
  else none

/-- Reads the bytes after a first byte: the code point and the rest, or the number of bad bytes. -/
def readTails (low high : Nat) : Nat → Nat → Nat → List UInt8 →
    Except (Option Nat) (Nat × List UInt8)
  | 0, _, value, bytes => .ok (value, bytes)
  | _ + 1, _, _, [] => .error none
  | n + 1, seen, value, b :: bytes =>
      if low ≤ b.toNat ∧ b.toNat ≤ high then
        readTails 0x80 0xbf n (seen + 1) (value * 64 + b.toNat % 64) bytes
      else .error (some seen)

/-- Reads one character: it and the rest, or the number of bad bytes. -/
def readChar (b : UInt8) (bytes : List UInt8) : Except (Option Nat) (Char × List UInt8) :=
  match Lead.ofByte? b.toNat with
  | none => .error (some 1)
  | some lead =>
      (readTails lead.low lead.high lead.tails 1 lead.bits bytes).map fun (value, rest) =>
        (Char.ofNat value, rest)

theorem length_of_readTails {low high n seen value result : Nat} {bytes rest : List UInt8}
    (h : readTails low high n seen value bytes = .ok (result, rest)) :
    rest.length + n = bytes.length := by
  induction n generalizing low high seen value bytes with
  | zero =>
      simp only [readTails, Except.ok.injEq, Prod.mk.injEq] at h
      simp [h.2]
  | succ n ih =>
      cases bytes with
      | nil => simp [readTails] at h
      | cons b bytes =>
          rw [readTails] at h
          split at h
          · have := ih h
            simp only [List.length_cons]
            omega
          · simp at h

theorem length_of_readChar {b : UInt8} {c : Char} {bytes rest : List UInt8}
    (h : readChar b bytes = .ok (c, rest)) : rest.length ≤ bytes.length := by
  unfold readChar at h
  split at h
  · simp at h
  · next lead _ =>
      cases hr : readTails lead.low lead.high lead.tails 1 lead.bits bytes with
      | error e => simp [hr, Except.map] at h
      | ok p =>
          obtain ⟨value, r⟩ := p
          simp only [hr, Except.map, Except.ok.injEq, Prod.mk.injEq] at h
          have := length_of_readTails hr
          rw [← h.2]
          omega

def decodeFrom (start : Nat) : List UInt8 → Except Fault (List Char)
  | [] => .ok []
  | b :: bytes =>
      match h : readChar b bytes with
      | .error badBytes => .error ⟨start, badBytes⟩
      | .ok (c, rest) =>
          have := length_of_readChar h
          (decodeFrom (start + c.utf8Size) rest).map (c :: ·)
termination_by bytes => bytes.length
decreasing_by simp only [List.length_cons]; omega

def decode (bytes : List UInt8) : Except Fault (List Char) :=
  decodeFrom 0 bytes

def encode (cs : List Char) : List UInt8 :=
  cs.flatMap String.utf8EncodeChar

end LoxSyntax.Text.Utf8
