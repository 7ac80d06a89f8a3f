import GroupStore.Json.Token

/-!
# Strings in JSON texts

Writing escapes the quote, the backslash and the control characters below the blank, the common
ones by a letter and the others by four hexadecimal digits.  Reading decodes any escape and gives
none for a lone half of a surrogate pair or for bytes that are not UTF-8.
-/

namespace GroupStore.Json

/-! ### Writing -/

/-- A hexadecimal digit in lower case. -/
def hexDigit (n : Nat) : Char := if n < 10 then Char.ofNat (48 + n) else Char.ofNat (87 + n)

/-- How a character stands in a string. -/
def escape (c : Char) : List Char :=
  if c = '"' then ['\\', '"']
  else if c = '\\' then ['\\', '\\']
  else if c = '\x08' then ['\\', 'b']
  else if c = '\x0c' then ['\\', 'f']
  else if c = '\n' then ['\\', 'n']
  else if c = '\r' then ['\\', 'r']
  else if c = '\t' then ['\\', 't']
  else if c.toNat < 32 then
    ['\\', 'u', '0', '0', hexDigit (c.toNat / 16), hexDigit (c.toNat % 16)]
  else [c]

/-- Whether a character stands for itself in a string. -/
def isPlain (c : Char) : Bool := c ≠ '"' && c ≠ '\\' && 32 ≤ c.toNat

/-- Append a character as it stands in a string. -/
def pushEscaped (out : String) (c : Char) : String :=
  if isPlain c then out.push c else out ++ String.ofList (escape c)

/-- A string in quotes. -/
def quoted (s : String) : String := (s.foldl pushEscaped "\"").push '"'

theorem escape_of_isPlain {c : Char} (h : isPlain c = true) : escape c = [c] := by
  simp only [isPlain, Bool.and_eq_true, decide_eq_true_eq] at h
  obtain ⟨⟨quote, backslash⟩, blank⟩ := h
  have other (d : Char) (small : d.toNat < 32) : c ≠ d := fun e => by subst e; omega
  simp [escape, quote, backslash, Nat.not_lt.mpr blank, other '\x08' (by decide),
    other '\x0c' (by decide), other '\n' (by decide), other '\r' (by decide),
    other '\t' (by decide)]

theorem toList_pushEscaped (out : String) (c : Char) :
    (pushEscaped out c).toList = out.toList ++ escape c := by
  unfold pushEscaped
  split
  · simp [escape_of_isPlain, *]
  · simp

theorem toList_foldl_pushEscaped (cs : List Char) (out : String) :
    (cs.foldl pushEscaped out).toList = out.toList ++ cs.flatMap escape := by
  induction cs generalizing out with
  | nil => simp
  | cons c cs ih => simp [ih, toList_pushEscaped]

/-- A quoted string is the escapes of its characters between quotes. -/
theorem toList_quoted (s : String) :
    (quoted s).toList = '"' :: (s.toList.flatMap escape ++ ['"']) := by
  simp [quoted, String.foldl_eq_foldl_toList, toList_foldl_pushEscaped]

/-! ### Reading -/

/-- The number of four hexadecimal digits. -/
def hexWord? : List UInt8 → Option Nat
  | [a, b, c, d] => do
    let a ← Tokenizer.hexValue? a
    let b ← Tokenizer.hexValue? b
    let c ← Tokenizer.hexValue? c
    let d ← Tokenizer.hexValue? d
    return ((a * 16 + b) * 16 + c) * 16 + d
  | _ => none

/-- The encoding of a character, latest byte first. -/
def encodeRev (n : Nat) : List UInt8 := (String.utf8EncodeChar (Char.ofNat n)).reverse

/-- The byte that a letter after a backslash stands for. -/
def simpleEscape? (b : UInt8) : Option UInt8 :=
  if b = ascii '"' ∨ b = ascii '\\' ∨ b = ascii '/' then some b
  else if b = ascii 'b' then some 8
  else if b = ascii 'f' then some 12
  else if b = ascii 'n' then some 10
  else if b = ascii 'r' then some 13
  else if b = ascii 't' then some 9
  else none

/-- Whether a number is the first half of a surrogate pair. -/
def isHighSurrogate (n : Nat) : Bool := 0xD800 ≤ n && n ≤ 0xDBFF

/-- Whether a number is the second half of a surrogate pair. -/
def isLowSurrogate (n : Nat) : Bool := 0xDC00 ≤ n && n ≤ 0xDFFF

/-- The character of a surrogate pair. -/
def surrogatePair (high low : Nat) : Nat := 0x10000 + (high - 0xD800) * 0x400 + (low - 0xDC00)

/-- Decode the escapes of a raw string; `done` holds the decoded bytes, latest first. -/
def unescape (done : List UInt8) : List UInt8 → Option (List UInt8)
  | [] => some done.reverse
  | b :: rest =>
    if b = ascii '\\' then
      match rest with
      | u :: h₁ :: h₂ :: h₃ :: h₄ :: rest =>
        if u = ascii 'u' then
          match hexWord? [h₁, h₂, h₃, h₄] with
          | none => none
          | some high =>
            if isHighSurrogate high then
              match rest with
              | s :: v :: l₁ :: l₂ :: l₃ :: l₄ :: rest =>
                if s = ascii '\\' ∧ v = ascii 'u' then
                  match hexWord? [l₁, l₂, l₃, l₄] with
                  | none => none
                  | some low =>
                    if isLowSurrogate low then
                      unescape (encodeRev (surrogatePair high low) ++ done) rest
                    else none
                else none
              | _ => none
            else if isLowSurrogate high then none
            else unescape (encodeRev high ++ done) rest
        else
          match simpleEscape? u with
          | none => none
          | some c => unescape (c :: done) (h₁ :: h₂ :: h₃ :: h₄ :: rest)
      | u :: rest =>
        match simpleEscape? u with
        | none => none
        | some c => unescape (c :: done) rest
      | [] => none
    else unescape (b :: done) rest

/-- Raw bytes without a backslash stand for themselves. -/
theorem unescape_of_not_mem (done raw : List UInt8) (h : ascii '\\' ∉ raw) :
    unescape done raw = some (done.reverse ++ raw) := by
  induction raw generalizing done with
  | nil => simp [unescape]
  | cons b rest ih =>
    have ne : b ≠ ascii '\\' := fun e => h (by simp [e])
    have := ih (b :: done) fun m => h (List.mem_cons_of_mem _ m)
    unfold unescape
    simp [ne, this]

/-- The string of raw bytes; most have no escape and need no decoding. -/
def readText? (raw : List UInt8) : Option String :=
  if raw.contains (ascii '\\') then
    (unescape [] raw).bind fun bytes => String.fromUTF8? bytes.toByteArray
  else String.fromUTF8? raw.toByteArray

theorem readText?_eq (raw : List UInt8) :
    readText? raw = (unescape [] raw).bind fun bytes => String.fromUTF8? bytes.toByteArray := by
  unfold readText?
  split
  · rfl
  · rename_i h
    rw [unescape_of_not_mem [] raw (by simpa using h)]
    simp

end GroupStore.Json
