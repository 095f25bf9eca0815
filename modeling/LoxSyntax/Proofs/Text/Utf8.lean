import LoxSyntax.Text.Utf8

/-!
Reading UTF-8 is the inverse of encoding: the bytes that are read as a text are those that encode
it. The first byte of a character tells its class, and in each class the value that is read is the
one whose digits to the base of 64 the bytes hold.
-/

namespace LoxSyntax.Text.Utf8

variable {c : Char} {b : UInt8} {bytes rest : List UInt8} {cs : List Char} {start : Nat}

/-- The first bytes of characters of one, two, three and four bytes. The second byte is bounded more
narrowly where a shorter form, a surrogate or too large a value would begin. -/
theorem Lead.ofByte?_eq_some_iff {n : Nat} {lead : Lead} :
    Lead.ofByte? n = some lead ↔
      (n < 0x80 ∧ lead = ⟨n, 0, 0x80, 0xbf⟩) ∨
      (0xc2 ≤ n ∧ n < 0xe0 ∧ lead = ⟨n - 0xc0, 1, 0x80, 0xbf⟩) ∨
      (0xe0 ≤ n ∧ n < 0xf0 ∧ lead = ⟨n - 0xe0, 2, if n = 0xe0 then 0xa0 else 0x80,
        if n = 0xed then 0x9f else 0xbf⟩) ∨
      (0xf0 ≤ n ∧ n < 0xf5 ∧ lead = ⟨n - 0xf0, 3, if n = 0xf0 then 0x90 else 0x80,
        if n = 0xf4 then 0x8f else 0xbf⟩) := by
  unfold Lead.ofByte?
  grind

theorem encode_ofNat {v : Nat} (hv : v.isValidChar) :
    String.utf8EncodeChar (Char.ofNat v) =
      if v ≤ 127 then [UInt8.ofNat v]
      else if v ≤ 2047 then [UInt8.ofNat (v / 64 % 32 + 192), UInt8.ofNat (v % 64 + 128)]
      else if v ≤ 65535 then
        [UInt8.ofNat (v / 4096 % 16 + 224), UInt8.ofNat (v / 64 % 64 + 128),
          UInt8.ofNat (v % 64 + 128)]
      else
        [UInt8.ofNat (v / 262144 % 8 + 240), UInt8.ofNat (v / 4096 % 64 + 128),
          UInt8.ofNat (v / 64 % 64 + 128), UInt8.ofNat (v % 64 + 128)] := by
  have hval : (Char.ofNat v).val.toNat = v := by
    rw [Char.ofNat, dif_pos hv]
    rfl
  simp only [String.utf8EncodeChar, hval]

theorem ofNat_eq {n : Nat} (h : n = b.toNat) : UInt8.ofNat n = b := by
  rw [h, UInt8.ofNat_toNat]

theorem readTails_succ_eq_ok_iff {low high n seen value result : Nat} :
    readTails low high (n + 1) seen value bytes = .ok (result, rest) ↔
      ∃ b more, bytes = b :: more ∧ (low ≤ b.toNat ∧ b.toNat ≤ high) ∧
        readTails 0x80 0xbf n (seen + 1) (value * 64 + b.toNat % 64) more = .ok (result, rest) := by
  cases bytes with
  | nil => simp [readTails]
  | cons b bytes =>
      rw [readTails]
      constructor
      · intro h
        split at h
        · next hbounds => exact ⟨b, bytes, rfl, hbounds, h⟩
        · cases h
      · intro h
        obtain ⟨_, _, heq, hbounds, h⟩ := h
        cases heq
        rw [if_pos hbounds, h]

theorem readTails_zero_eq_ok_iff {low high seen value result : Nat} :
    readTails low high 0 seen value bytes = .ok (result, rest) ↔ value = result ∧ bytes = rest := by
  rw [readTails, Except.ok.injEq, Prod.mk.injEq]

theorem readChar_eq_ok_iff {lead : Lead} (hlead : Lead.ofByte? b.toNat = some lead) :
    readChar b bytes = .ok (c, rest) ↔ ∃ value, Char.ofNat value = c ∧
      readTails lead.low lead.high lead.tails 1 lead.bits bytes = .ok (value, rest) := by
  simp only [readChar, hlead]
  cases readTails lead.low lead.high lead.tails 1 lead.bits bytes with
  | error e => simp [Except.map]
  | ok result =>
      obtain ⟨value, after⟩ := result
      simp only [Except.map, Except.ok.injEq, Prod.mk.injEq]
      constructor
      · intro h
        exact ⟨value, h.1, rfl, h.2⟩
      · intro h
        obtain ⟨_, hc, rfl, hrest⟩ := h
        exact ⟨hc, hrest⟩

/-- A character that is read is the one that the bytes encode. -/
theorem eq_encode_of_readChar (h : readChar b bytes = .ok (c, rest)) :
    b :: bytes = String.utf8EncodeChar c ++ rest := by
  cases hlead : Lead.ofByte? b.toNat with
  | none => simp [readChar, hlead] at h
  | some lead =>
  obtain ⟨value, rfl, htails⟩ := (readChar_eq_ok_iff hlead).1 h
  rcases Lead.ofByte?_eq_some_iff.1 hlead with
    ⟨_, rfl⟩ | ⟨_, _, rfl⟩ | ⟨_, _, rfl⟩ | ⟨_, _, rfl⟩ <;>
    simp only [readTails_succ_eq_ok_iff, readTails_zero_eq_ok_iff] at htails
  · obtain ⟨rfl, rfl⟩ := htails
    rw [encode_ofNat (.inl (by omega)), if_pos (by omega), UInt8.ofNat_toNat]
    rfl
  · obtain ⟨b₁, _, rfl, h₁, rfl, rfl⟩ := htails
    rw [encode_ofNat (.inl (by omega)), if_neg (by omega), if_pos (by omega),
      ofNat_eq (b := b) (by omega), ofNat_eq (b := b₁) (by omega)]
    rfl
  · obtain ⟨b₁, _, rfl, h₁, b₂, _, rfl, h₂, rfl, rfl⟩ := htails
    have hsecond : 0x80 ≤ b₁.toNat ∧ b₁.toNat ≤ 0xbf ∧ (b.toNat = 0xe0 → 0xa0 ≤ b₁.toNat) ∧
        (b.toNat = 0xed → b₁.toNat ≤ 0x9f) := by grind
    rw [encode_ofNat (by unfold Nat.isValidChar; omega), if_neg (by omega), if_neg (by omega),
      if_pos (by omega), ofNat_eq (b := b) (by omega), ofNat_eq (b := b₁) (by omega),
      ofNat_eq (b := b₂) (by omega)]
    rfl
  · obtain ⟨b₁, _, rfl, h₁, b₂, _, rfl, h₂, b₃, _, rfl, h₃, rfl, rfl⟩ := htails
    have hsecond : 0x80 ≤ b₁.toNat ∧ b₁.toNat ≤ 0xbf ∧ (b.toNat = 0xf0 → 0x90 ≤ b₁.toNat) ∧
        (b.toNat = 0xf4 → b₁.toNat ≤ 0x8f) := by grind
    rw [encode_ofNat (by unfold Nat.isValidChar; omega), if_neg (by omega), if_neg (by omega),
      if_neg (by omega), ofNat_eq (b := b) (by omega), ofNat_eq (b := b₁) (by omega),
      ofNat_eq (b := b₂) (by omega), ofNat_eq (b := b₃) (by omega)]
    rfl

theorem toNat_ofNat_of_lt {n : Nat} (h : n < 256) : (UInt8.ofNat n).toNat = n := by
  rw [UInt8.toNat_ofNat', Nat.mod_eq_of_lt h]

/-- The bytes of a character are read as it, whatever stands behind them. -/
theorem readChar_encode_append (c : Char) (rest : List UInt8) :
    ∃ b bytes, String.utf8EncodeChar c ++ rest = b :: bytes ∧
      readChar b bytes = .ok (c, rest) := by
  obtain ⟨v, hv, rfl⟩ : ∃ v, Nat.isValidChar v ∧ Char.ofNat v = c :=
    ⟨c.toNat, c.valid, Char.ofNat_toNat c⟩
  have hvalid : v < 0xd800 ∨ 0xdfff < v ∧ v < 0x110000 := hv
  rw [encode_ofNat hv]
  split
  · have hb := toNat_ofNat_of_lt (n := v) (by omega)
    refine ⟨_, _, rfl, (readChar_eq_ok_iff (Lead.ofByte?_eq_some_iff.2 (.inl ⟨?_, rfl⟩))).2
      ⟨v, rfl, readTails_zero_eq_ok_iff.2 ⟨?_, rfl⟩⟩⟩ <;> omega
  split
  · have hb := toNat_ofNat_of_lt (n := v / 64 % 32 + 192) (by omega)
    have h₁ := toNat_ofNat_of_lt (n := v % 64 + 128) (by omega)
    refine ⟨_, _, rfl, (readChar_eq_ok_iff
      (Lead.ofByte?_eq_some_iff.2 (.inr (.inl ⟨?_, ?_, rfl⟩)))).2 ⟨v, rfl, ?_⟩⟩
    · omega
    · omega
    · simp only [readTails_succ_eq_ok_iff, readTails_zero_eq_ok_iff]
      refine ⟨_, _, rfl, ⟨?_, ?_⟩, ?_, rfl⟩ <;> omega
  split
  · have hb := toNat_ofNat_of_lt (n := v / 4096 % 16 + 224) (by omega)
    have h₁ := toNat_ofNat_of_lt (n := v / 64 % 64 + 128) (by omega)
    have h₂ := toNat_ofNat_of_lt (n := v % 64 + 128) (by omega)
    refine ⟨_, _, rfl, (readChar_eq_ok_iff
      (Lead.ofByte?_eq_some_iff.2 (.inr (.inr (.inl ⟨?_, ?_, rfl⟩))))).2 ⟨v, rfl, ?_⟩⟩
    · omega
    · omega
    · simp only [readTails_succ_eq_ok_iff, readTails_zero_eq_ok_iff]
      refine ⟨_, _, rfl, ⟨?_, ?_⟩, _, _, rfl, ⟨?_, ?_⟩, ?_, rfl⟩ <;> grind
  · have hb := toNat_ofNat_of_lt (n := v / 262144 % 8 + 240) (by omega)
    have h₁ := toNat_ofNat_of_lt (n := v / 4096 % 64 + 128) (by omega)
    have h₂ := toNat_ofNat_of_lt (n := v / 64 % 64 + 128) (by omega)
    have h₃ := toNat_ofNat_of_lt (n := v % 64 + 128) (by omega)
    refine ⟨_, _, rfl, (readChar_eq_ok_iff
      (Lead.ofByte?_eq_some_iff.2 (.inr (.inr (.inr ⟨?_, ?_, rfl⟩))))).2 ⟨v, rfl, ?_⟩⟩
    · omega
    · omega
    · simp only [readTails_succ_eq_ok_iff, readTails_zero_eq_ok_iff]
      refine ⟨_, _, rfl, ⟨?_, ?_⟩, _, _, rfl, ⟨?_, ?_⟩, _, _, rfl, ⟨?_, ?_⟩, ?_, rfl⟩ <;> grind

theorem decodeFrom_cons_of_ok (h : readChar b bytes = .ok (c, rest)) :
    decodeFrom start (b :: bytes) = (decodeFrom (start + c.utf8Size) rest).map (c :: ·) := by
  rw [decodeFrom]
  split
  · next hread => cases h.symm.trans hread
  · next hread =>
      cases h.symm.trans hread
      rfl

theorem decodeFrom_encode_append (c : Char) (bytes : List UInt8) :
    decodeFrom start (String.utf8EncodeChar c ++ bytes) =
      (decodeFrom (start + c.utf8Size) bytes).map (c :: ·) := by
  obtain ⟨b, more, heq, hread⟩ := readChar_encode_append c bytes
  rw [heq, decodeFrom_cons_of_ok hread]

theorem map_cons_eq_ok_iff {x : Except Fault (List Char)} :
    x.map (c :: ·) = .ok cs ↔ ∃ ds, x = .ok ds ∧ cs = c :: ds := by
  cases x with
  | error fault => exact ⟨nofun, fun ⟨_, h, _⟩ => nomatch h⟩
  | ok ds => simp [Except.map, eq_comm]

/-- The bytes that are read as a text are those that encode it. -/
theorem decodeFrom_eq_ok_iff : decodeFrom start bytes = .ok cs ↔ bytes = encode cs := by
  constructor
  · intro h
    fun_induction decodeFrom start bytes generalizing cs with
    | case1 =>
        cases h
        rfl
    | case2 => cases h
    | case3 start b bytes c rest hread _ ih =>
        obtain ⟨ds, hds, rfl⟩ := map_cons_eq_ok_iff.1 h
        rw [eq_encode_of_readChar hread, ih hds]
        rfl
  · rintro rfl
    induction cs generalizing start with
    | nil => rw [encode, List.flatMap_nil, decodeFrom]
    | cons c cs ih =>
        rw [encode, List.flatMap_cons, decodeFrom_encode_append, ← encode, ih]
        rfl

theorem decode_eq_ok_iff : decode bytes = .ok cs ↔ bytes = encode cs :=
  decodeFrom_eq_ok_iff

theorem decode_encode (cs : List Char) : decode (encode cs) = .ok cs :=
  decode_eq_ok_iff.2 rfl

end LoxSyntax.Text.Utf8
