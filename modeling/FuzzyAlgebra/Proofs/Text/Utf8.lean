import FuzzyAlgebra.Text.Utf8

/-!
# Decoding is the inverse of encoding

Bytes can be decoded in pieces: what a piece leaves open is closed by the next one. The bytes of a
text give back its characters and leave nothing open, so no piece of them is refused.
-/

namespace FuzzyAlgebra.Text.Utf8

/-! ### Pieces -/

section Pieces

variable {o o' o'' : Open} {a b : List UInt8} {cs : List Char}

theorem decode?_cons (o : Open) (x : UInt8) (a : List UInt8) :
    decode? o (x :: a) = (step? o x.toNat).bind fun p =>
      (decode? p.2 a).map fun q => (p.1.toList ++ q.1, q.2) := by
  rw [decode?]
  cases step? o x.toNat with
  | none => rfl
  | some p => cases h : decode? p.2 a <;> simp [h]

theorem decode?_append (o : Open) (a b : List UInt8) :
    decode? o (a ++ b) = (decode? o a).bind fun p =>
      (decode? p.2 b).map fun q => (p.1 ++ q.1, q.2) := by
  induction a generalizing o with
  | nil => simp [decode?]
  | cons x a ih =>
    rw [List.cons_append, decode?_cons, decode?_cons]
    cases step? o x.toNat with
    | none => rfl
    | some p =>
      simp only [Option.bind_some, ih]
      cases decode? p.2 a with
      | none => rfl
      | some q => cases h : decode? q.2 b <;> simp [h]

theorem decode?_of_step {c? : Option Char} {x : UInt8} (hstep : step? o x.toNat = some (c?, o'))
    (hrest : decode? o' a = some (cs, o'')) : decode? o (x :: a) = some (c?.toList ++ cs, o'') := by
  rw [decode?_cons, hstep]
  simp [hrest]

/-- A piece of what decodes does decode, and so does what follows it. -/
theorem decode?_append_eq_some (h : decode? o (a ++ b) = some (cs, o'')) :
    ∃ cs₁ o₁ cs₂, decode? o a = some (cs₁, o₁) ∧ decode? o₁ b = some (cs₂, o'') ∧
      cs = cs₁ ++ cs₂ := by
  rw [decode?_append, Option.bind_eq_some_iff] at h
  obtain ⟨⟨cs₁, o₁⟩, ha, hrest⟩ := h
  obtain ⟨⟨cs₂, o₂⟩, hb, heq⟩ := Option.map_eq_some_iff.1 hrest
  obtain ⟨rfl, rfl⟩ := Prod.mk.inj heq
  exact ⟨cs₁, o₁, cs₂, ha, hb, rfl⟩

end Pieces

/-! ### Single bytes -/

section Bytes

variable {b code low high : Nat}

theorem step?_closed_of_lt (h : b < 0x80) :
    step? .closed b = some (some (Char.ofNat b), .closed) := by
  simp [step?, Open.closed, h]

theorem step?_closed_of_le (h : 0x80 ≤ b) : step? .closed b = (lead? b).map fun o => (none, o) := by
  simp [step?, Open.closed, Nat.not_lt.2 h]

theorem step?_last (hlow : low ≤ b) (hhigh : b ≤ high) :
    step? ⟨1, code, low, high⟩ b =
      some (some (Char.ofNat (code * 64 + (b - 0x80))), .closed) := by
  simp [step?, Nat.not_lt.2 hlow, Nat.not_lt.2 hhigh]

theorem step?_inner (n : Nat) (hlow : low ≤ b) (hhigh : b ≤ high) :
    step? ⟨n + 2, code, low, high⟩ b =
      some (none, ⟨n + 1, code * 64 + (b - 0x80), 0x80, 0xbf⟩) := by
  simp [step?, Nat.not_lt.2 hlow, Nat.not_lt.2 hhigh]

end Bytes

/-! ### Characters -/

section Characters

variable {w x y z : UInt8} {code low high : Nat}

theorem decode?_last (hlow : low ≤ x.toNat) (hhigh : x.toNat ≤ high) :
    decode? ⟨1, code, low, high⟩ [x] =
      some ([Char.ofNat (code * 64 + (x.toNat - 0x80))], .closed) :=
  decode?_of_step (step?_last hlow hhigh) rfl

theorem decode?_one (hw : w.toNat < 0x80) :
    decode? .closed [w] = some ([Char.ofNat w.toNat], .closed) :=
  decode?_of_step (step?_closed_of_lt hw) rfl

theorem decode?_two (hw : 0xc2 ≤ w.toNat ∧ w.toNat ≤ 0xdf) (hx : 0x80 ≤ x.toNat ∧ x.toNat ≤ 0xbf) :
    decode? .closed [w, x] =
      some ([Char.ofNat ((w.toNat - 0xc0) * 64 + (x.toNat - 0x80))], .closed) := by
  have hlead : step? .closed w.toNat = some (none, ⟨1, w.toNat - 0xc0, 0x80, 0xbf⟩) := by
    rw [step?_closed_of_le (by omega), lead?, if_pos hw]
    rfl
  exact decode?_of_step hlead (decode?_last hx.1 hx.2)

theorem decode?_three (hw : 0xe0 ≤ w.toNat ∧ w.toNat ≤ 0xef)
    (hx : (if w.toNat = 0xe0 then 0xa0 else 0x80) ≤ x.toNat ∧
      x.toNat ≤ if w.toNat = 0xed then 0x9f else 0xbf)
    (hy : 0x80 ≤ y.toNat ∧ y.toNat ≤ 0xbf) :
    decode? .closed [w, x, y] =
      some ([Char.ofNat (((w.toNat - 0xe0) * 64 + (x.toNat - 0x80)) * 64 + (y.toNat - 0x80))],
        .closed) := by
  have hlead : step? .closed w.toNat = some (none, ⟨2, w.toNat - 0xe0,
      if w.toNat = 0xe0 then 0xa0 else 0x80, if w.toNat = 0xed then 0x9f else 0xbf⟩) := by
    rw [step?_closed_of_le (by omega), lead?, if_neg (by omega), if_pos hw]
    rfl
  exact decode?_of_step hlead (decode?_of_step (step?_inner 0 hx.1 hx.2)
    (decode?_last hy.1 hy.2))

theorem decode?_four (hw : 0xf0 ≤ w.toNat ∧ w.toNat ≤ 0xf4)
    (hx : (if w.toNat = 0xf0 then 0x90 else 0x80) ≤ x.toNat ∧
      x.toNat ≤ if w.toNat = 0xf4 then 0x8f else 0xbf)
    (hy : 0x80 ≤ y.toNat ∧ y.toNat ≤ 0xbf) (hz : 0x80 ≤ z.toNat ∧ z.toNat ≤ 0xbf) :
    decode? .closed [w, x, y, z] =
      some ([Char.ofNat ((((w.toNat - 0xf0) * 64 + (x.toNat - 0x80)) * 64 + (y.toNat - 0x80)) * 64 +
        (z.toNat - 0x80))], .closed) := by
  have hlead : step? .closed w.toNat = some (none, ⟨3, w.toNat - 0xf0,
      if w.toNat = 0xf0 then 0x90 else 0x80, if w.toNat = 0xf4 then 0x8f else 0xbf⟩) := by
    rw [step?_closed_of_le (by omega), lead?, if_neg (by omega), if_neg (by omega), if_pos hw]
    rfl
  exact decode?_of_step hlead (decode?_of_step (step?_inner 1 hx.1 hx.2)
    (decode?_of_step (step?_inner 0 hy.1 hy.2) (decode?_last hz.1 hz.2)))

end Characters

/-- The bytes of a character, by the number of bits that it needs. -/
theorem decode?_utf8EncodeChar (c : Char) :
    decode? .closed (String.utf8EncodeChar c) = some ([c], .closed) := by
  obtain ⟨v, hv⟩ : ∃ v, c.val.toNat = v := ⟨_, rfl⟩
  have hvalid : v < 0xd800 ∨ 0xdfff < v ∧ v < 0x110000 := hv ▸ c.valid
  have hbyte (n : Nat) (hn : n < 256) : (UInt8.ofNat n).toNat = n := by
    rw [UInt8.toNat_ofNat', Nat.mod_eq_of_lt hn]
  have hchar (n : Nat) (hn : n = v) : Char.ofNat n = c := by
    rw [hn, ← hv]
    exact Char.ofNat_toNat c
  simp only [String.utf8EncodeChar, hv]
  split
  · rw [decode?_one (by rw [hbyte _ (by omega)]; omega), hbyte _ (by omega), hchar _ rfl]
  split
  · have hw := hbyte (v / 64 % 32 + 192) (by omega)
    have hx := hbyte (v % 64 + 128) (by omega)
    rw [decode?_two (by rw [hw]; omega) (by rw [hx]; omega), hw, hx, hchar _ (by omega)]
  split
  · have hw := hbyte (v / 4096 % 16 + 224) (by omega)
    have hx := hbyte (v / 64 % 64 + 128) (by omega)
    have hy := hbyte (v % 64 + 128) (by omega)
    rw [decode?_three (by rw [hw]; omega) (by rw [hw, hx]; split <;> split <;> omega)
      (by rw [hy]; omega), hw, hx, hy, hchar _ (by omega)]
  · have hw := hbyte (v / 262144 % 8 + 240) (by omega)
    have hx := hbyte (v / 4096 % 64 + 128) (by omega)
    have hy := hbyte (v / 64 % 64 + 128) (by omega)
    have hz := hbyte (v % 64 + 128) (by omega)
    rw [decode?_four (by rw [hw]; omega) (by rw [hw, hx]; split <;> split <;> omega)
      (by rw [hy]; omega) (by rw [hz]; omega), hw, hx, hy, hz, hchar _ (by omega)]

theorem decode?_flatMap (cs : List Char) :
    decode? .closed (cs.flatMap String.utf8EncodeChar) = some (cs, .closed) := by
  induction cs with
  | nil => rfl
  | cons c cs ih => simp [decode?_append, decode?_utf8EncodeChar, ih]

/-! ### Texts -/

theorem toList_loop (bytes : ByteArray) (i : Nat) (r : List UInt8) :
    ByteArray.toList.loop bytes i r = r.reverse ++ bytes.data.toList.drop i := by
  fun_induction ByteArray.toList.loop bytes i r with
  | case1 i r h ih =>
    have hi : i < bytes.data.toList.length := by simpa using h
    rw [ih, List.drop_eq_getElem_cons hi]
    simp [ByteArray.get!, h]
  | case2 i r h =>
    rw [List.drop_eq_nil_of_le (by simpa using h), List.append_nil]

theorem toList_toByteArray (s : String) :
    s.toByteArray.toList = s.toList.flatMap String.utf8EncodeChar := by
  rw [← String.utf8Encode_toList, ByteArray.toList, toList_loop, List.utf8Encode]
  simp

theorem decode?_of_fromUTF8? {bytes : ByteArray} {s : String}
    (h : String.fromUTF8? bytes = some s) :
    decode? .closed bytes.toList = some (s.toList, .closed) := by
  have hbytes : bytes = s.toByteArray := by
    rw [String.fromUTF8?] at h
    split at h
    · exact congrArg String.toByteArray (Option.some.inj h)
    · cases h
  rw [hbytes, toList_toByteArray, decode?_flatMap]

end FuzzyAlgebra.Text.Utf8
