import Conformance.Text.Utf8
/-!
# Texts and their bytes

A scan that stands between characters takes the bytes of a character as that character, whatever
follows them. So every text is read back from its bytes, and a text that is stored and loaded again
is the same.
-/

namespace Conformance.Utf8

/-! ## The bytes of a character -/

theorem toNat_ofNat {n : Nat} (h : n.isValidChar) : (Char.ofNat n).toNat = n := by
  rw [Char.ofNat, dif_pos h]
  rfl

theorem lead_one {n : Nat} (h : n ≤ 0x7F) :
    lead (UInt8.ofNat n) = ([some (Char.ofNat n)], .start) := by
  have hb := UInt8.toNat_ofNat_of_lt' (by omega : n < 256)
  rw [lead, if_pos (by rw [UInt8.le_iff_toNat_le, hb]; exact h), hb]

theorem lead_two {n : Nat} (h : 2 ≤ n) (h' : n < 32) :
    lead (UInt8.ofNat (n + 0xC0)) = ([], .partway 0 0x80 0xBF n) := by
  have hb := UInt8.toNat_ofNat_of_lt' (by omega : n + 0xC0 < 256)
  generalize UInt8.ofNat (n + 0xC0) = b at hb
  simp only [lead, UInt8.le_iff_toNat_le, UInt8.lt_iff_toNat_lt, hb, UInt8.reduceToNat]
  rw [if_neg (by omega), if_neg (by omega), if_pos (by omega)]
  congr
  omega

/-- After the lead byte of three, overlong forms and surrogates are refused. -/
theorem lead_three {n : Nat} (h : n < 16) :
    lead (UInt8.ofNat (n + 0xE0)) = ([], .partway 1 (if n = 0 then 0xA0 else 0x80)
      (if n = 13 then 0x9F else 0xBF) n) := by
  have hall : ∀ n < 16, lead (UInt8.ofNat (n + 0xE0)) = ([], .partway 1
    (if n = 0 then 0xA0 else 0x80) (if n = 13 then 0x9F else 0xBF) n) := by decide
  exact hall n h

/-- After the lead byte of four, overlong forms and what lies past the last code point are refused.
-/
theorem lead_four {n : Nat} (h : n ≤ 4) :
    lead (UInt8.ofNat (n + 0xF0)) = ([], .partway 2 (if n = 0 then 0x90 else 0x80)
      (if n = 4 then 0x8F else 0xBF) n) := by
  have hall : ∀ n < 5, lead (UInt8.ofNat (n + 0xF0)) = ([], .partway 2
    (if n = 0 then 0x90 else 0x80) (if n = 4 then 0x8F else 0xBF) n) := by decide
  exact hall n (by omega)

/-- A continuation byte within its range adds six bits. -/
theorem step_partway {low high : UInt8} {n : Nat} (missing value : Nat) (h : n < 64)
    (hlow : low.toNat ≤ n + 0x80) (hhigh : n + 0x80 ≤ high.toNat) :
    step (.partway missing low high value) (UInt8.ofNat (n + 0x80)) =
      match missing with
      | 0 => ([some (Char.ofNat (value * 64 + n))], .start)
      | m + 1 => ([], .partway m 0x80 0xBF (value * 64 + n)) := by
  have hb := UInt8.toNat_ofNat_of_lt' (by omega : n + 0x80 < 256)
  have hrange : low ≤ UInt8.ofNat (n + 0x80) ∧ UInt8.ofNat (n + 0x80) ≤ high := by
    rw [UInt8.le_iff_toNat_le, UInt8.le_iff_toNat_le, hb]
    exact ⟨hlow, hhigh⟩
  have hbits : (UInt8.ofNat (n + 0x80)).toNat % 64 = n := by
    rw [hb]
    omega
  refine (if_pos hrange).trans ?_
  cases missing with
  | zero => exact congrArg (fun k ↦ ([some (Char.ofNat (value * 64 + k))], State.start)) hbits
  | succ m => exact congrArg (fun k ↦ ([], State.partway m 0x80 0xBF (value * 64 + k))) hbits

/-- A continuation byte that no range narrows. -/
theorem step_partway_full {n : Nat} (missing value : Nat) (h : n < 64) :
    step (.partway missing 0x80 0xBF value) (UInt8.ofNat (n + 0x80)) =
      match missing with
      | 0 => ([some (Char.ofNat (value * 64 + n))], .start)
      | m + 1 => ([], .partway m 0x80 0xBF (value * 64 + n)) :=
  step_partway missing value h (by simp) (by simp; omega)

theorem scanFrom_two {v : Nat} (h : 0x7F < v) (h' : v ≤ 0x7FF) (bytes : List UInt8) :
    scanFrom .start (UInt8.ofNat (v / 64 % 32 + 0xC0) :: UInt8.ofNat (v % 64 + 0x80) :: bytes)
      = some (Char.ofNat v) :: scanFrom .start bytes := by
  have hv : v / 64 * 64 + v % 64 = v := by omega
  rw [Nat.mod_eq_of_lt (by omega : v / 64 < 32)]
  simp only [scanFrom_cons, step.eq_1]
  rw [lead_two (by omega) (by omega)]
  simp only [step_partway_full 0 _ (Nat.mod_lt v (by decide : 0 < 64)), hv]
  rfl

theorem scanFrom_three {v : Nat} (h : 0x7FF < v) (h' : v ≤ 0xFFFF)
    (hvalid : v < 0xD800 ∨ 0xDFFF < v) (bytes : List UInt8) :
    scanFrom .start (UInt8.ofNat (v / 4096 % 16 + 0xE0) :: UInt8.ofNat (v / 64 % 64 + 0x80) ::
      UInt8.ofNat (v % 64 + 0x80) :: bytes) = some (Char.ofNat v) :: scanFrom .start bytes := by
  have hv : (v / 4096 * 64 + v / 64 % 64) * 64 + v % 64 = v := by omega
  -- The form is not overlong, and `v` is no surrogate, so the second byte is in its range.
  have hlow : (if v / 4096 = 0 then (0xA0 : UInt8) else 0x80).toNat ≤ v / 64 % 64 + 0x80 := by
    split
    · simp only [UInt8.reduceToNat]
      omega
    · exact Nat.le_add_left _ _
  have hhigh : v / 64 % 64 + 0x80 ≤ (if v / 4096 = 13 then (0x9F : UInt8) else 0xBF).toNat := by
    split
    · simp only [UInt8.reduceToNat]
      omega
    · simp only [UInt8.reduceToNat]
      omega
  rw [Nat.mod_eq_of_lt (by omega : v / 4096 < 16)]
  simp only [scanFrom_cons, step.eq_1]
  rw [lead_three (by omega), step_partway 1 _ (by omega) hlow hhigh]
  simp only [step_partway_full 0 _ (Nat.mod_lt v (by decide : 0 < 64)), hv]
  rfl

theorem scanFrom_four {v : Nat} (h : 0xFFFF < v) (h' : v < 0x110000) (bytes : List UInt8) :
    scanFrom .start (UInt8.ofNat (v / 262144 % 8 + 0xF0) :: UInt8.ofNat (v / 4096 % 64 + 0x80) ::
      UInt8.ofNat (v / 64 % 64 + 0x80) :: UInt8.ofNat (v % 64 + 0x80) :: bytes)
      = some (Char.ofNat v) :: scanFrom .start bytes := by
  have hv : ((v / 262144 * 64 + v / 4096 % 64) * 64 + v / 64 % 64) * 64 + v % 64 = v := by omega
  -- The form is not overlong, and `v` is a code point, so the second byte is in its range.
  have hlow : (if v / 262144 = 0 then (0x90 : UInt8) else 0x80).toNat ≤ v / 4096 % 64 + 0x80 := by
    split
    · simp only [UInt8.reduceToNat]
      omega
    · exact Nat.le_add_left _ _
  have hhigh : v / 4096 % 64 + 0x80 ≤ (if v / 262144 = 4 then (0x8F : UInt8) else 0xBF).toNat := by
    split
    · simp only [UInt8.reduceToNat]
      omega
    · simp only [UInt8.reduceToNat]
      omega
  rw [Nat.mod_eq_of_lt (by omega : v / 262144 < 8)]
  simp only [scanFrom_cons, step.eq_1]
  rw [lead_four (by omega), step_partway 2 _ (by omega) hlow hhigh]
  simp only [step_partway_full _ _ (Nat.mod_lt _ (by decide : 0 < 64)), hv]
  rfl

/-- The bytes of a character are read as that character, whatever follows. -/
theorem scanFrom_utf8EncodeChar (c : Char) (bytes : List UInt8) :
    scanFrom .start (String.utf8EncodeChar c ++ bytes) = some c :: scanFrom .start bytes := by
  have hvalid : c.val.toNat < 0xD800 ∨ 0xDFFF < c.val.toNat ∧ c.val.toNat < 0x110000 := c.valid
  have hc : Char.ofNat c.val.toNat = c := Char.ofNat_toNat c
  unfold String.utf8EncodeChar
  dsimp only
  generalize c.val.toNat = v at hvalid hc
  rw [← hc]
  split
  · rename_i h
    rw [List.singleton_append, scanFrom_cons, step, lead_one h]
    rfl
  split
  · rename_i h h'
    exact scanFrom_two (Nat.not_le.mp h) h' bytes
  split
  · rename_i h h'
    exact scanFrom_three (Nat.not_le.mp h) h' (hvalid.imp_right And.left) bytes
  · rename_i h
    exact scanFrom_four (Nat.not_le.mp h) (by omega) bytes

theorem scanFrom_encode (cs : List Char) (bytes : List UInt8) :
    scanFrom .start (encode cs ++ bytes) = cs.map some ++ scanFrom .start bytes := by
  induction cs with
  | nil => rfl
  | cons c cs ih =>
    rw [encode, List.flatMap_cons, List.append_assoc, scanFrom_utf8EncodeChar, ← encode, ih]
    rfl

/-- A text is read back from its bytes. -/
theorem decode?_encode (cs : List Char) : decode? (encode cs) = some cs := by
  have h := scanFrom_encode cs []
  rw [List.append_nil, scanFrom_nil, finish, List.append_nil] at h
  rw [decode?, scan, h, List.mapM_map]
  exact List.mapM_pure.trans (congrArg some (List.map_id cs))

/-! ## Stored texts -/

theorem toList_loop (b : ByteArray) (i : Nat) (acc : List UInt8) :
    ByteArray.toList.loop b i acc = acc.reverse ++ b.data.toList.drop i := by
  fun_induction ByteArray.toList.loop b i acc with
  | case1 i acc h ih =>
    have hlt : i < b.data.size := h
    have hget : b.get! i = b.data.toList[i] := getElem!_pos b.data i hlt
    have hdrop := List.drop_eq_getElem_cons (l := b.data.toList) hlt
    rw [← hget] at hdrop
    rw [ih, hdrop, List.reverse_cons, List.append_assoc, List.singleton_append]
  | case2 i acc h =>
    rw [List.drop_eq_nil_of_le (Nat.not_lt.mp h), List.append_nil]

theorem toList_eq (b : ByteArray) : b.toList = b.data.toList :=
  toList_loop b 0 []

theorem toList_toUTF8 (s : String) : s.toUTF8.toList = encode s.toList := by
  rw [toList_eq, String.toUTF8_eq_toByteArray, ← String.utf8Encode_toList, List.utf8Encode,
    List.data_toByteArray]
  rfl

end Conformance.Utf8
