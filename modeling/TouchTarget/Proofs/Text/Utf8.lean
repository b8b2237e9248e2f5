import Mathlib.Data.Nat.Find

/-!
# Characters and bytes

A text is stored as the UTF-8 bytes of its characters. A byte below 128 is a whole character there,
and no part of another one. What one finds by looking for such bytes therefore begins where a
character begins: the main statement carries the first find among the bytes over to the first find
among the characters and back.
-/

namespace TouchTarget.Text

/-! ## The first find -/

/-- The first place from a start on at which something holds. -/
structure IsFirst (p : Nat → Prop) (start i : Nat) : Prop where
  start_le : start ≤ i
  holds : p i
  least : ∀ j, start ≤ j → j < i → ¬p j

/-- There is one first place at most. -/
theorem IsFirst.eq {p : Nat → Prop} {start i j : Nat} (hi : IsFirst p start i)
    (hj : IsFirst p start j) : i = j := by
  apply Nat.le_antisymm
  · exact Nat.le_of_not_lt fun hlt ↦ hi.least j hj.start_le hlt hj.holds
  · exact Nat.le_of_not_lt fun hlt ↦ hj.least i hi.start_le hlt hi.holds

/-- What holds somewhere has a first place at which it does. -/
theorem exists_isFirst {p : Nat → Prop} {start k : Nat} (hstart : start ≤ k) (h : p k) :
    ∃ i, IsFirst p start i := by
  classical
  have hexists : ∃ i, start ≤ i ∧ p i := ⟨k, hstart, h⟩
  obtain ⟨hle, hholds⟩ := Nat.find_spec hexists
  exact ⟨Nat.find hexists, hle, hholds, fun j hj hlt hp ↦ Nat.find_min hexists hlt ⟨hj, hp⟩⟩

theorem isFirst_zero_iff {p : Nat → Prop} (h : p 0) (k : Nat) : IsFirst p 0 k ↔ k = 0 := by
  constructor
  · intro hk
    apply Nat.eq_zero_of_not_pos
    intro hpos
    exact hk.least 0 (Nat.le_refl 0) hpos h
  · rintro rfl
    exact ⟨Nat.le_refl 0, h, fun j _ hj ↦ absurd hj (Nat.not_lt_zero j)⟩

theorem isFirst_add_iff {p : Nat → Prop} {start : Nat} (k : Nat) :
    IsFirst p start k ↔ ∃ j, start + j = k ∧ IsFirst (fun j ↦ p (start + j)) 0 j := by
  constructor
  · intro h
    obtain ⟨j, rfl⟩ := Nat.exists_eq_add_of_le h.start_le
    refine ⟨j, rfl, Nat.zero_le j, h.holds, ?_⟩
    intro i _ hij
    exact h.least (start + i) (Nat.le_add_right start i) (Nat.add_lt_add_left hij start)
  · rintro ⟨j, rfl, h⟩
    refine ⟨Nat.le_add_right start j, h.holds, ?_⟩
    intro i hi hij
    obtain ⟨i, rfl⟩ := Nat.exists_eq_add_of_le hi
    exact h.least i (Nat.zero_le i) (Nat.lt_of_add_lt_add_left hij)

theorem isFirst_succ_iff {p : Nat → Prop} (h : ¬p 0) (k : Nat) :
    IsFirst p 0 k ↔ ∃ j, j + 1 = k ∧ IsFirst (fun j ↦ p (j + 1)) 0 j := by
  have hone : IsFirst p 0 k ↔ IsFirst p 1 k := by
    constructor
    · intro hk
      refine ⟨Nat.pos_of_ne_zero ?_, hk.holds, fun j _ ↦ hk.least j (Nat.zero_le j)⟩
      rintro rfl
      exact h hk.holds
    · intro hk
      refine ⟨Nat.zero_le k, hk.holds, ?_⟩
      intro j _ hjk hj
      rcases Nat.eq_zero_or_pos j with rfl | hpos
      · exact h hj
      · exact hk.least j hpos hjk hj
  rw [hone, isFirst_add_iff]
  simp only [Nat.add_comm 1]

section

variable {α : Type} (p : List α → Prop) (r : Nat → Prop)

theorem not_exists_isFirst_nil (h : ¬p []) :
    ¬∃ k, IsFirst (fun k ↦ p (List.drop k [])) 0 k ∧ r k := by
  rintro ⟨k, hk, -⟩
  have hp := hk.holds
  rw [List.drop_nil] at hp
  exact h hp

theorem exists_isFirst_cons_iff [DecidablePred p] (first : α) (rest : List α) :
    (∃ k, IsFirst (fun k ↦ p ((first :: rest).drop k)) 0 k ∧ r k) ↔
      if p (first :: rest) then r 0 else ∃ k, IsFirst (fun k ↦ p (rest.drop k)) 0 k ∧ r (k + 1) := by
  split
  next h =>
    constructor
    · rintro ⟨k, hk, hr⟩
      obtain rfl := (isFirst_zero_iff h k).1 hk
      exact hr
    · intro hr
      exact ⟨0, (isFirst_zero_iff h 0).2 rfl, hr⟩
  next h =>
    constructor
    · rintro ⟨k, hk, hr⟩
      obtain ⟨j, rfl, hj⟩ := (isFirst_succ_iff h k).1 hk
      exact ⟨j, hj, hr⟩
    · rintro ⟨j, hj, hr⟩
      exact ⟨j + 1, (isFirst_succ_iff h (j + 1)).2 ⟨j, rfl, hj⟩, hr⟩

/-- A find from a start on is one from the front of what begins there. -/
theorem exists_isFirst_iff_drop (list : List α) (start : Nat) :
    (∃ k, IsFirst (fun k ↦ p (list.drop k)) start k ∧ r k) ↔
      ∃ j, IsFirst (fun j ↦ p ((list.drop start).drop j)) 0 j ∧ r (start + j) := by
  simp only [List.drop_drop]
  constructor
  · rintro ⟨k, hk, hr⟩
    obtain ⟨j, rfl, hj⟩ := (isFirst_add_iff k).1 hk
    exact ⟨j, hj, hr⟩
  · rintro ⟨j, hj, hr⟩
    exact ⟨start + j, (isFirst_add_iff _).2 ⟨j, rfl, hj⟩, hr⟩

end

/-! ## The bytes of a text -/

/-- The bytes that a text is stored as. -/
def storedBytes (text : String) : List UInt8 :=
  text.toByteArray.data.toList

def bytesOf (text : List Char) : List UInt8 :=
  text.flatMap String.utf8EncodeChar

theorem storedBytes_eq (text : String) : storedBytes text = bytesOf text.toList := by
  rw [storedBytes, ← String.utf8Encode_toList, List.utf8Encode, List.data_toByteArray]
  rfl

theorem bytesOf_cons (c : Char) (text : List Char) :
    bytesOf (c :: text) = String.utf8EncodeChar c ++ bytesOf text :=
  List.flatMap_cons

theorem bytesOf_append (text more : List Char) :
    bytesOf (text ++ more) = bytesOf text ++ bytesOf more :=
  List.flatMap_append

/-! ## The bytes of one character -/

theorem utf8EncodeChar_of_lt {c : Char} (h : c.toNat < 128) :
    String.utf8EncodeChar c = [UInt8.ofNat c.toNat] :=
  if_pos (Nat.le_of_lt_succ h)

theorem bytesOf_cons_of_lt {c : Char} (h : c.toNat < 128) (text : List Char) :
    bytesOf (c :: text) = UInt8.ofNat c.toNat :: bytesOf text := by
  rw [bytesOf_cons, utf8EncodeChar_of_lt h, List.singleton_append]

/-- No byte of a character beyond ASCII is below 128. -/
theorem le_of_mem_utf8EncodeChar {c : Char} (h : 128 ≤ c.toNat) {byte : UInt8}
    (hmem : byte ∈ String.utf8EncodeChar c) : 128 ≤ byte.toNat := by
  have hval : ¬c.val.toNat ≤ 127 := Nat.not_le.2 h
  unfold String.utf8EncodeChar at hmem
  simp only [if_neg hval] at hmem
  split at hmem
  · simp only [List.mem_cons, List.not_mem_nil, or_false] at hmem
    rcases hmem with rfl | rfl <;> rw [UInt8.toNat_ofNat'] <;> omega
  split at hmem
  · simp only [List.mem_cons, List.not_mem_nil, or_false] at hmem
    rcases hmem with rfl | rfl | rfl <;> rw [UInt8.toNat_ofNat'] <;> omega
  · simp only [List.mem_cons, List.not_mem_nil, or_false] at hmem
    rcases hmem with rfl | rfl | rfl | rfl <;> rw [UInt8.toNat_ofNat'] <;> omega

theorem length_utf8EncodeChar_pos (c : Char) : 0 < (String.utf8EncodeChar c).length := by
  rw [String.length_utf8EncodeChar]
  exact c.utf8Size_pos

theorem exists_bytesOf_cons_of_le {c : Char} (h : 128 ≤ c.toNat) (text : List Char) :
    ∃ byte bytes, bytesOf (c :: text) = byte :: bytes ∧ 128 ≤ byte.toNat := by
  obtain ⟨byte, bytes, hbytes⟩ := List.exists_cons_of_length_pos (length_utf8EncodeChar_pos c)
  refine ⟨byte, bytes ++ bytesOf text, ?_, le_of_mem_utf8EncodeChar h ?_⟩
  · rw [bytesOf_cons, hbytes, List.cons_append]
  · rw [hbytes]
    exact List.mem_cons_self

/-! ## Where characters begin -/

/-- The number of bytes in front of a character. -/
def offset (text : List Char) (k : Nat) : Nat :=
  (bytesOf (text.take k)).length

theorem offset_cons_succ (c : Char) (text : List Char) (k : Nat) :
    offset (c :: text) (k + 1) = (String.utf8EncodeChar c).length + offset text k := by
  rw [offset, List.take_succ_cons, bytesOf_cons, List.length_append, offset]

theorem take_offset (text : List Char) (k : Nat) :
    (bytesOf text).take (offset text k) = bytesOf (text.take k) := by
  calc
    _ = (bytesOf (text.take k) ++ bytesOf (text.drop k)).take (offset text k) := by
      rw [← bytesOf_append, List.take_append_drop]
    _ = _ := List.take_left

theorem drop_offset (text : List Char) (k : Nat) :
    (bytesOf text).drop (offset text k) = bytesOf (text.drop k) := by
  calc
    _ = (bytesOf (text.take k) ++ bytesOf (text.drop k)).drop (offset text k) := by
      rw [← bytesOf_append, List.take_append_drop]
    _ = _ := List.drop_left

theorem take_drop_offset (text : List Char) {start stop : Nat} (h : start ≤ stop) :
    ((bytesOf text).take (offset text stop)).drop (offset text start) =
      bytesOf ((text.take stop).drop start) := by
  have hoffset : offset text start = offset (text.take stop) start := by
    rw [offset, offset, List.take_take, Nat.min_eq_left h]
  rw [take_offset, hoffset, drop_offset]

theorem offset_add (text : List Char) (j k : Nat) :
    offset text (j + k) = offset text j + offset (text.drop j) k := by
  rw [offset, List.take_add, bytesOf_append, List.length_append]
  rfl

theorem offset_lt_offset {text : List Char} {j k : Nat} (h : j < k) (hk : k ≤ text.length) :
    offset text j < offset text k := by
  obtain ⟨more, rfl⟩ := Nat.exists_eq_add_of_lt h
  rw [Nat.add_assoc, offset_add]
  apply Nat.lt_add_of_pos_right
  cases hrest : text.drop j with
  | nil =>
    have hlength := List.drop_eq_nil_iff.1 hrest
    omega
  | cons c rest =>
    rw [offset_cons_succ]
    exact Nat.add_pos_left (length_utf8EncodeChar_pos c) _

theorem offset_le_offset {text : List Char} {j k : Nat} (h : j ≤ k) (hk : k ≤ text.length) :
    offset text j ≤ offset text k := by
  rcases Nat.eq_or_lt_of_le h with rfl | hlt
  · exact Nat.le_refl _
  · exact Nat.le_of_lt (offset_lt_offset hlt hk)

/-- A character begins where a byte is below 128. -/
theorem exists_offset_of_lt {text : List Char} {i : Nat} {byte : UInt8}
    (hi : (bytesOf text)[i]? = some byte) (hbyte : byte.toNat < 128) :
    ∃ k, k < text.length ∧ offset text k = i := by
  induction text generalizing i with
  | nil => cases hi
  | cons c text ih =>
    rw [bytesOf_cons] at hi
    rcases Nat.lt_or_ge i (String.utf8EncodeChar c).length with hlt | hge
    · rw [List.getElem?_append_left hlt] at hi
      have hc : c.toNat < 128 := by
        apply Nat.lt_of_not_le
        intro hc
        exact Nat.not_le.2 hbyte (le_of_mem_utf8EncodeChar hc (List.mem_of_getElem? hi))
      rw [utf8EncodeChar_of_lt hc, List.length_singleton, Nat.lt_one_iff] at hlt
      exact ⟨0, Nat.zero_lt_succ _, hlt.symm⟩
    · rw [List.getElem?_append_right hge] at hi
      obtain ⟨k, hk, hoffset⟩ := ih hi
      refine ⟨k + 1, Nat.succ_lt_succ hk, ?_⟩
      rw [offset_cons_succ, hoffset]
      exact Nat.add_sub_cancel' hge

/-! ## The first find in both -/

section

variable {p : List Char → Prop} {q : List UInt8 → Prop}
  (hiff : ∀ rest, q (bytesOf rest) ↔ p rest)
  (hlt : ∀ {bytes}, q bytes → ∃ byte, bytes[0]? = some byte ∧ byte.toNat < 128)

include hiff

theorem of_drop_chars {text : List Char} {k : Nat} (h : p (text.drop k)) :
    q ((bytesOf text).drop (offset text k)) := by
  rw [drop_offset]
  exact (hiff _).2 h

include hlt

/-- What begins with a byte below 128 begins with a character. -/
theorem exists_of_drop_bytes {text : List Char} {i : Nat} (h : q ((bytesOf text).drop i)) :
    ∃ k, k < text.length ∧ offset text k = i ∧ p (text.drop k) := by
  obtain ⟨byte, hbyte, hascii⟩ := hlt h
  rw [List.getElem?_drop] at hbyte
  obtain ⟨k, hk, rfl⟩ := exists_offset_of_lt hbyte hascii
  rw [drop_offset, hiff] at h
  exact ⟨k, hk, rfl, h⟩

theorem forall_not_drop_iff (text : List Char) :
    (∀ i, ¬q ((bytesOf text).drop i)) ↔ ∀ k, ¬p (text.drop k) := by
  constructor
  · intro h k hp
    exact h _ (of_drop_chars hiff hp)
  · intro h i hq
    obtain ⟨k, -, -, hp⟩ := exists_of_drop_bytes hiff hlt hq
    exact h k hp

/-- The first find among the bytes, if it begins with a byte below 128, is the first find among the
characters. -/
theorem isFirst_offset_iff (text : List Char) {start : Nat} (hstart : start ≤ text.length)
    (i : Nat) : IsFirst (fun i ↦ q ((bytesOf text).drop i)) (offset text start) i ↔
      ∃ k, offset text k = i ∧ IsFirst (fun k ↦ p (text.drop k)) start k := by
  constructor
  · intro h
    obtain ⟨k, hk, rfl, hp⟩ := exists_of_drop_bytes hiff hlt h.holds
    refine ⟨k, rfl, ?_, hp, ?_⟩
    · apply Nat.le_of_not_lt
      intro hbefore
      exact Nat.not_lt.2 h.start_le (offset_lt_offset hbefore hstart)
    · intro j hj hjk hpj
      exact h.least _ (offset_le_offset hj (Nat.le_of_lt (Nat.lt_trans hjk hk)))
        (offset_lt_offset hjk (Nat.le_of_lt hk)) (of_drop_chars hiff hpj)
  · rintro ⟨k, rfl, h⟩
    have hk : k ≤ text.length := by
      apply Nat.le_of_not_lt
      intro hbehind
      obtain ⟨byte, hbyte, -⟩ := hlt ((hiff _).2 h.holds)
      rw [List.drop_eq_nil_of_le (Nat.le_of_lt hbehind)] at hbyte
      cases hbyte
    refine ⟨offset_le_offset h.start_le hk, of_drop_chars hiff h.holds, ?_⟩
    intro i hi hik hq
    obtain ⟨j, hj, rfl, hp⟩ := exists_of_drop_bytes hiff hlt hq
    apply h.least j _ _ hp
    · apply Nat.le_of_not_lt
      intro hbefore
      exact Nat.not_lt.2 hi (offset_lt_offset hbefore hstart)
    · apply Nat.lt_of_not_le
      intro hbehind
      exact Nat.not_lt.2 (offset_le_offset hbehind (Nat.le_of_lt hj)) hik

end

end TouchTarget.Text
