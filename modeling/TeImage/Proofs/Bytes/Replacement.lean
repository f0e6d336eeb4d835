/-
Byte strings that are no text throughout, and what is shown for them.

`Shows bs cs` is told from the encoding of characters alone: where a character stands it is kept,
and where none does the longest stretch that begins one is replaced, or a single byte if it begins
none. The decoder shows just that for any byte string (`shows_iff`). A zero byte is never part of
anything longer, so what stands before and behind it is shown as if it stood alone
(`decodeLossy_append_zero`).
-/
import TeImage.Proofs.Bytes.Utf8

namespace TeImage.Utf8

/-- The first bytes of some character, or all of them. -/
def Begins (bs : Bytes) : Prop := ∃ c, bs <+: String.utf8EncodeChar c

/-- At the start of `front ++ rest` stands no character, and `front` is what is replaced for it: the
longest stretch that begins a character, or a byte that begins none. -/
structure Broken (front rest : Bytes) : Prop where
  nonempty : front ≠ []
  no_character : ∀ c, ¬ String.utf8EncodeChar c <+: front ++ rest
  begins : Begins front ∨ front.length = 1
  longest : ∀ bs, bs <+: front ++ rest → Begins bs → bs.length ≤ front.length

/-- What is shown for a byte string: its characters, and one U+FFFD for each broken stretch. -/
inductive Shows : Bytes → List Char → Prop
  | nil : Shows [] []
  | kept {c : Char} {rest : Bytes} {cs : List Char} : Shows rest cs →
      Shows (String.utf8EncodeChar c ++ rest) (c :: cs)
  | replaced {front rest : Bytes} {cs : List Char} : Broken front rest → Shows rest cs →
      Shows (front ++ rest) ('\uFFFD' :: cs)

/-! ## Beginnings -/

/-- What begins a character meets the first of the ranges behind its lead byte. -/
theorem exists_followers {c : Char} {lead : UInt8} {bs : Bytes}
    (h : lead :: bs <+: String.utf8EncodeChar c) : ∃ rs behind, followers lead = some rs ∧
      List.Forall₂ ByteRange.Mem rs behind ∧ bs <+: behind := by
  obtain ⟨more, whole⟩ := h
  have written := writes_utf8EncodeChar c
  rw [← whole, List.cons_append] at written
  obtain ⟨rs, hrs, fits⟩ := written.followers
  exact ⟨rs, bs ++ more, hrs, fits, List.prefix_append bs more⟩

theorem forall₂_take_fitting (rs : List ByteRange) (bs : Bytes) :
    List.Forall₂ ByteRange.Mem (rs.take (fitting rs bs)) (bs.take (fitting rs bs)) := by
  induction rs generalizing bs with
  | nil => exact .nil
  | cons r rs ih =>
    cases bs with
    | nil => exact .nil
    | cons b bs =>
      rw [fitting]
      split
      · rename_i hb
        exact .cons hb (ih bs)
      · exact .nil

theorem length_le_fitting {rs : List ByteRange} {whole bs front : Bytes}
    (fits : List.Forall₂ ByteRange.Mem rs whole) (hwhole : front <+: whole) (hbs : front <+: bs) :
    front.length ≤ fitting rs bs := by
  induction fits generalizing front bs with
  | nil =>
    rw [List.prefix_nil.1 hwhole]
    exact Nat.zero_le _
  | cons hb _ ih =>
    cases front with
    | nil => exact Nat.zero_le _
    | cons b front =>
      obtain ⟨rfl, behind⟩ := List.cons_prefix_cons.1 hwhole
      obtain ⟨more, rfl⟩ := hbs
      rw [List.cons_append, fitting, if_pos hb]
      exact Nat.succ_le_succ (ih behind (List.prefix_append front more))

theorem low_mem_second (lead : UInt8) : (second lead).Mem (second lead).low := by
  unfold second ByteRange.Mem
  split_ifs <;> simp_all

/-- No range behind a lead byte is empty. -/
theorem low_mem_of_followers {lead : UInt8} {rs : List ByteRange} (h : followers lead = some rs) :
    ∀ r ∈ rs, r.Mem r.low := by
  have ordinary : following.Mem following.low := by decide
  have narrowed := low_mem_second lead
  rcases followers_eq_some_iff.1 h with ⟨-, rfl⟩ | ⟨-, -, rfl⟩ | ⟨-, -, rfl⟩ | ⟨-, -, rfl⟩ <;>
    simp [ordinary, narrowed]

/-- What fits the first of the ranges behind a lead byte begins a character: the lowest bytes of the
other ranges finish it. -/
theorem begins_take_fitting {lead : UInt8} {rs : List ByteRange} (hrs : followers lead = some rs)
    (bs : Bytes) : Begins (lead :: bs.take (fitting rs bs)) := by
  let others := (rs.drop (fitting rs bs)).map ByteRange.low
  have others_fit : List.Forall₂ ByteRange.Mem (rs.drop (fitting rs bs)) others := by
    rw [List.forall₂_map_right_iff, List.forall₂_same]
    exact fun r hr => low_mem_of_followers hrs r (List.mem_of_mem_drop hr)
  have fits : List.Forall₂ ByteRange.Mem (rs.take (fitting rs bs) ++ rs.drop (fitting rs bs))
      (bs.take (fitting rs bs) ++ others) :=
    List.rel_append (forall₂_take_fitting rs bs) others_fit
  rw [List.take_append_drop] at fits
  have written := (writes_character hrs fits).unique (writes_utf8EncodeChar _)
  exact ⟨_, others, by rw [List.cons_append, written]⟩

/-! ## Broken stretches -/

theorem Broken.length_le {front rest front' rest' : Bytes} (h : Broken front rest)
    (h' : Broken front' rest') (same : front ++ rest = front' ++ rest') :
    front.length ≤ front'.length := by
  rcases h.begins with begins | single
  · exact h'.longest front (same ▸ List.prefix_append front rest) begins
  · rw [single]
    exact List.length_pos_iff.2 h'.nonempty

theorem Broken.unique {front rest front' rest' : Bytes} (h : Broken front rest)
    (h' : Broken front' rest') (same : front ++ rest = front' ++ rest') :
    front = front' ∧ rest = rest' :=
  List.append_inj same (Nat.le_antisymm (h.length_le h' same) (h'.length_le h same.symm))

/-- A segment without a character is broken. -/
theorem broken_of_segment {lead : UInt8} {bs : Bytes} {count : Nat}
    (h : segment lead bs = (none, count)) : Broken (lead :: bs.take count) (bs.drop count) := by
  have whole : lead :: bs.take count ++ bs.drop count = lead :: bs :=
    List.take_append_drop (count + 1) (lead :: bs)
  refine {
    nonempty := List.cons_ne_nil _ _
    no_character := fun c hc => ?_
    begins := ?_
    longest := fun front hfront begins => ?_ }
  · -- a character that stood there would be the segment's
    rw [whole] at hc
    obtain ⟨rest, hrest⟩ := hc
    obtain ⟨lead', front, hc⟩ := List.exists_cons_of_ne_nil (writes_utf8EncodeChar c).ne_nil
    have written := hc ▸ writes_utf8EncodeChar c
    rw [hc, List.cons_append, List.cons.injEq] at hrest
    obtain ⟨rfl, rfl⟩ := hrest
    cases (segment_of_writes written rest).symm.trans h
  · unfold segment at h
    split at h
    · obtain rfl : 0 = count := congrArg Prod.snd h
      exact .inr rfl
    · rename_i rs hrs
      obtain rfl : fitting rs bs = count := congrArg Prod.snd h
      exact .inl (begins_take_fitting hrs bs)
  · rw [whole] at hfront
    cases front with
    | nil => exact Nat.zero_le _
    | cons b front =>
      obtain ⟨rfl, behind⟩ := List.cons_prefix_cons.1 hfront
      obtain ⟨c, hc⟩ := begins
      obtain ⟨rs, whole, hrs, fits, inside⟩ := exists_followers hc
      rw [segment, hrs] at h
      obtain rfl : fitting rs bs = count := congrArg Prod.snd h
      have bound := length_le_fitting fits inside behind
      have room := behind.length_le
      rw [List.length_cons, List.length_cons, List.length_take]
      omega

/-- A broken stretch is one segment, without a character. -/
theorem Broken.segments {front rest : Bytes} (h : Broken front rest) :
    segments (front ++ rest) = none :: segments rest := by
  obtain ⟨lead, bs, rfl⟩ := List.exists_cons_of_ne_nil h.nonempty
  have whole (count : Nat) : lead :: (bs ++ rest).take count ++ (bs ++ rest).drop count =
      lead :: bs ++ rest := List.take_append_drop (count + 1) (lead :: bs ++ rest)
  rw [List.cons_append, segments_cons]
  rcases hseg : segment lead (bs ++ rest) with ⟨_ | c, count⟩
  · obtain ⟨-, behind⟩ := (broken_of_segment hseg).unique h (whole count)
    rw [behind]
  · have written := (writes_of_segment hseg).unique (writes_utf8EncodeChar c)
    exact absurd ⟨(bs ++ rest).drop count, written ▸ whole count⟩ (h.no_character c)

/-! ## The decoder -/

theorem Shows.eq_segments {bs : Bytes} {cs : List Char} (h : Shows bs cs) :
    (segments bs).map (·.getD '\uFFFD') = cs := by
  induction h with
  | nil => rfl
  | kept _ ih => rw [segments_of_writes (writes_utf8EncodeChar _), List.map_cons, ih]; rfl
  | replaced broken _ ih => rw [broken.segments, List.map_cons, ih]; rfl

theorem shows_segments (bs : Bytes) : Shows bs ((segments bs).map (·.getD '\uFFFD')) := by
  induction size : bs.length using Nat.strong_induction_on generalizing bs with
  | _ size' ih =>
    cases bs with
    | nil => exact .nil
    | cons lead bs =>
      have rest (count : Nat) := ih (bs.drop count).length (by
        rw [← size, List.length_cons, List.length_drop]
        omega) _ rfl
      have whole (count : Nat) : lead :: bs.take count ++ bs.drop count = lead :: bs :=
        List.take_append_drop (count + 1) (lead :: bs)
      rw [segments_cons]
      rcases hseg : segment lead bs with ⟨_ | c, count⟩
      · rw [← whole count]
        exact .replaced (broken_of_segment hseg) (rest count)
      · rw [← whole count, (writes_of_segment hseg).unique (writes_utf8EncodeChar c)]
        exact .kept (rest count)

/-- The decoder shows what is to be shown, and nothing else is. -/
theorem shows_iff {bs : Bytes} {cs : List Char} : Shows bs cs ↔ (decodeLossy bs).toList = cs := by
  rw [decodeLossy, String.toList_ofList]
  constructor
  · exact Shows.eq_segments
  · rintro rfl
    exact shows_segments bs

theorem shows_encode (s : String) : Shows (encode s) s.toList := by
  rw [shows_iff, decodeLossy, String.toList_ofList, encode, segments_flatMap, List.map_map]
  exact List.map_id' _

/-! ## Zero bytes -/

/-- A zero byte encodes a character alone, and is no part of any other. -/
theorem Writes.eq_zero {c : Char} {bs : Bytes} (h : Writes c bs) (zero : 0 ∈ bs) :
    c = '\x00' ∧ bs = [0] := by
  have value : (0 : UInt8).toNat = 0 := rfl
  cases h with
  | one _ h₀ =>
    obtain rfl := List.mem_singleton.1 zero
    exact ⟨Char.toNat_inj.1 h₀.symm, rfl⟩
  | two | three | four =>
    simp only [List.mem_cons, List.not_mem_nil, or_false, ← UInt8.toNat_inj] at zero
    omega

theorem Begins.eq_zero {bs : Bytes} (h : Begins bs) (zero : 0 ∈ bs) : bs = [0] := by
  obtain ⟨c, hc⟩ := h
  obtain ⟨-, whole⟩ := (writes_utf8EncodeChar c).eq_zero (hc.subset zero)
  rw [whole] at hc
  exact hc.eq_of_length_le (List.length_pos_of_mem zero)

theorem Broken.zero_not_mem {front rest : Bytes} (h : Broken front rest) : 0 ∉ front := by
  intro zero
  have alone : front = [0] := by
    rcases h.begins with begins | single
    · exact begins.eq_zero zero
    · obtain ⟨b, rfl⟩ := List.length_eq_one_iff.1 single
      rw [List.mem_singleton.1 zero]
  subst alone
  exact h.no_character '\x00' (List.prefix_append [0] rest)

theorem Begins.inside {bs front more : Bytes} (h : Begins bs) (hbs : bs <+: front ++ 0 :: more) :
    bs <+: front ∨ bs = [0] := by
  rcases List.prefix_or_prefix_of_prefix hbs (List.prefix_append front (0 :: more)) with
    short | ⟨behind, rfl⟩
  · exact .inl short
  · cases behind with
    | nil => exact .inl (by rw [List.append_nil])
    | cons b behind =>
      rw [List.prefix_append_right_inj, List.cons_prefix_cons] at hbs
      obtain ⟨rfl, -⟩ := hbs
      exact .inr (h.eq_zero (List.mem_append_right _ List.mem_cons_self))

/-- A broken stretch stays what it is with a zero byte somewhere behind it. -/
theorem Broken.append_zero {front rest : Bytes} (h : Broken front rest) (more : Bytes) :
    Broken front (rest ++ 0 :: more) := by
  have assoc : front ++ (rest ++ 0 :: more) = front ++ rest ++ 0 :: more :=
    (List.append_assoc ..).symm
  refine {
    nonempty := h.nonempty
    no_character := fun c hc => ?_
    begins := h.begins
    longest := fun bs hbs begins => ?_ }
  · rcases Begins.inside ⟨c, List.prefix_refl _⟩ (assoc ▸ hc) with short | alone
    · exact h.no_character c short
    · obtain ⟨lead, bs, rfl⟩ := List.exists_cons_of_ne_nil h.nonempty
      rw [alone, List.cons_append, List.cons_prefix_cons] at hc
      exact h.zero_not_mem (hc.1 ▸ List.mem_cons_self)
  · rcases begins.inside (assoc ▸ hbs) with short | rfl
    · exact h.longest bs short begins
    · exact List.length_pos_iff.2 h.nonempty

theorem Shows.append_zero {front back : Bytes} {cs ds : List Char} (hfront : Shows front cs)
    (hback : Shows back ds) : Shows (front ++ 0 :: back) (cs ++ '\x00' :: ds) := by
  induction hfront with
  | nil => exact .kept (c := '\x00') hback
  | kept _ ih =>
    rw [List.append_assoc, List.cons_append]
    exact .kept ih
  | replaced broken _ ih =>
    rw [List.append_assoc, List.cons_append]
    exact .replaced (broken.append_zero back) ih

/-- What stands before and behind a zero byte is decoded as if it stood alone. -/
theorem decodeLossy_append_zero (front back : Bytes) :
    decodeLossy (front ++ 0 :: back) = decodeLossy front ++ "\x00" ++ decodeLossy back := by
  rw [← String.toList_inj, String.toList_append, String.toList_append, List.append_assoc]
  exact shows_iff.1 ((shows_iff.2 rfl).append_zero (shows_iff.2 rfl))

theorem Shows.eq_nil_iff {bs : Bytes} {cs : List Char} (h : Shows bs cs) : cs = [] ↔ bs = [] := by
  cases h with
  | nil => simp
  | kept => simp [(writes_utf8EncodeChar _).ne_nil]
  | replaced broken => simp [broken.nonempty]

/-- What is shown ends with a zero character just where the bytes end with a zero byte. -/
theorem Shows.last_eq_zero_iff {bs : Bytes} {cs : List Char} (h : Shows bs cs) :
    cs.getLast? = some '\x00' ↔ bs.getLast? = some 0 := by
  -- the last thing shown is what counts, and only a zero byte is shown as a zero character
  have last {front rest : Bytes} {c : Char} {cs : List Char} (hrest : Shows rest cs)
      (ih : cs.getLast? = some '\x00' ↔ rest.getLast? = some 0)
      (own : c = '\x00' ↔ front.getLast? = some 0) :
      (c :: cs).getLast? = some '\x00' ↔ (front ++ rest).getLast? = some 0 := by
    cases cs with
    | nil =>
      rw [hrest.eq_nil_iff.1 rfl, List.append_nil, List.getLast?_singleton, Option.some_inj, own]
    | cons d cs =>
      have more : rest ≠ [] := mt hrest.eq_nil_iff.2 (List.cons_ne_nil d cs)
      rw [List.getLast?_cons_cons, ih, List.getLast?_append_of_ne_nil _ more]
  induction h with
  | nil => simp
  | kept hrest ih =>
    refine last hrest ih ⟨?_, fun ends => ?_⟩
    · rintro rfl
      rfl
    · exact ((writes_utf8EncodeChar _).eq_zero (List.mem_of_getLast? ends)).1
  | replaced broken hrest ih =>
    refine last hrest ih ⟨fun zero => absurd zero (by decide), fun ends => ?_⟩
    exact absurd (List.mem_of_getLast? ends) broken.zero_not_mem

end TeImage.Utf8
