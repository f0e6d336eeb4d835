/-
Images in another place. An image has two parts that can move apart: the header with its section
table, from where the regions, the bound records and their names are placed, and the contents,
which lie at the plain image base: the sections, the entry point and the functions. Moving an
image changes addresses and nothing else, and what is registered in another place makes the moved
image (`registerAll_move`).
-/
import Mathlib.Tactic
import TeImage.Proofs.Load.Run

namespace TeImage

/-- How far each of the two parts of an image moves, upwards and round at `2 ^ 64`. -/
structure Displacement where
  header : UInt64
  contents : UInt64

/-! ## Maps by address -/

/-- The map with all keys moved by `d` and all values changed by `move`. -/
def moveKeys {β : Type} (d : UInt64) (move : β → β) (t : Std.ExtTreeMap UInt64 β compare) :
    Std.ExtTreeMap UInt64 β compare :=
  .ofList (t.toList.map fun p => (p.1 + d, move p.2)) compare

section

variable {β : Type} (d : UInt64) (move : β → β) (t : Std.ExtTreeMap UInt64 β compare)

/-- Under a moved key stands what stood under the key before. -/
theorem getElem?_moveKeys (a : UInt64) : (moveKeys d move t)[a + d]? = t[a]?.map move := by
  cases h : t[a]? with
  | some v =>
    have distinct : (t.toList.map fun p => (p.1 + d, move p.2)).Pairwise
        fun p q => ¬ compare p.1 q.1 = .eq := by
      refine List.pairwise_map.2 (t.distinct_keys_toList.imp fun {p q} hne heq => hne ?_)
      rw [Std.LawfulEqCmp.compare_eq_iff_eq] at heq ⊢
      exact (UInt64.add_left_inj d).1 heq
    have mem : (a + d, move v) ∈ t.toList.map fun p => (p.1 + d, move p.2) :=
      List.mem_map.2 ⟨(a, v), Std.ExtTreeMap.mem_toList_iff_getElem?_eq_some.2 h, rfl⟩
    exact Std.ExtTreeMap.getElem?_ofList_of_mem Std.ReflCmp.compare_self distinct mem
  | none =>
    refine Std.ExtTreeMap.getElem?_ofList_of_contains_eq_false (Bool.eq_false_iff.2 fun found => ?_)
    rw [List.contains_iff_mem, List.map_map, List.mem_map] at found
    obtain ⟨⟨b, v⟩, hb, heq⟩ := found
    obtain rfl : b = a := (UInt64.add_left_inj d).1 heq
    rw [Std.ExtTreeMap.mem_toList_iff_getElem?_eq_some, h] at hb
    cases hb

/-- Two maps are equal if they are at all moved keys. -/
theorem ext_moved_keys {t t' : Std.ExtTreeMap UInt64 β compare}
    (h : ∀ a : UInt64, t[a + d]? = t'[a + d]?) : t = t' := by
  apply Std.ExtTreeMap.ext_getElem?
  intro a
  have := h (a - d)
  rwa [UInt64.sub_add_cancel] at this

theorem moveKeys_insert (k : UInt64) (v : β) :
    moveKeys d move (t.insert k v) = (moveKeys d move t).insert (k + d) (move v) := by
  apply ext_moved_keys d
  intro a
  rw [getElem?_moveKeys, Std.ExtTreeMap.getElem?_insert, Std.ExtTreeMap.getElem?_insert,
    getElem?_moveKeys]
  simp only [Std.LawfulEqCmp.compare_eq_iff_eq, UInt64.add_left_inj]
  split <;> rfl

/-- Moving by nothing leaves the keys where they are. -/
theorem moveKeys_zero (h : ∀ v, move v = v) : moveKeys 0 move t = t := by
  apply ext_moved_keys 0
  intro a
  rw [getElem?_moveKeys, UInt64.add_zero, funext h (g := id), Option.map_id, id]

end

/-! ## Parts of an image -/

def Region.move (d : UInt64) (r : Region) : Region := { r with start := r.start + d }

def ImageSection.move (d : UInt64) (s : ImageSection) : ImageSection :=
  { s with address := s.address + d }

def DataVariable.move (d : UInt64) (v : DataVariable) : DataVariable :=
  { v with address := v.address + d }

def FunctionSignature.move (d : UInt64) (s : FunctionSignature) : FunctionSignature :=
  { s with start := s.start + d }

/-- Data symbols name the bound records, function symbols name functions. -/
def Displacement.ofSymbolKind (d : Displacement) : SymbolKind → UInt64
  | .data => d.header
  | .function => d.contents

def Symbol.move (d : Displacement) (s : Symbol) : Symbol :=
  { s with address := s.address + d.ofSymbolKind s.kind }

/-- Different symbols do not meet. -/
theorem Symbol.move_injective (d : Displacement) : Function.Injective (Symbol.move d) := by
  rintro ⟨kind, address, name⟩ ⟨kind', address', name'⟩ h
  simp only [move, Symbol.mk.injEq] at h
  obtain ⟨rfl, haddress, rfl⟩ := h
  rw [(UInt64.add_left_inj _).1 haddress]

def Registration.move (d : Displacement) : Registration → Registration
  | platform p => platform p
  | region r => region (r.move d.header)
  | imageSection s => imageSection (s.move d.contents)
  | type t => type t
  | dataVariable v => dataVariable (v.move d.header)
  | symbol s => symbol (s.move d)
  | entryPoint a => entryPoint (a + d.contents)
  | functionType s => functionType (s.move d.contents)

/-! ## Images -/

namespace Image

def move (d : Displacement) (i : Image) : Image where
  platform := i.platform
  regions := i.regions.map (Region.move d.header)
  sections := i.sections.map (ImageSection.move d.contents)
  types := i.types
  dataVariables := moveKeys d.header (DataVariable.move d.header) i.dataVariables
  symbols := i.symbols.map (Symbol.move d)
  entryPoint? := i.entryPoint?.map (· + d.contents)
  functions := moveKeys d.contents (FunctionSignature.move d.contents) i.functions

theorem move_empty (d : Displacement) : empty.move d = empty := rfl

theorem register_move (d : Displacement) (i : Image) (r : Registration) :
    (i.move d).register (r.move d) = (i.register r).move d := by
  cases r with
  | platform p => rfl
  | region r => simp only [register, Registration.move, move, List.map_append, List.map_cons,
      List.map_nil]
  | imageSection s => simp only [register, Registration.move, move, List.map_append, List.map_cons,
      List.map_nil]
  | type t => rfl
  | dataVariable v => simp only [register, Registration.move, move, moveKeys_insert]; rfl
  | symbol s =>
    -- a symbol that is there is there in the other place, and no other symbol comes to its place
    simp only [register, Registration.move, move,
      List.mem_map_of_injective (Symbol.move_injective d)]
    split <;> simp
  | entryPoint a => rfl
  | functionType s => simp only [register, Registration.move, move, moveKeys_insert]; rfl

/-- What is registered in another place makes the image in the other place. -/
theorem registerAll_move (d : Displacement) (i : Image) (rs : List Registration) :
    Sink.registerAll (i.move d) (rs.map (Registration.move d)) = (Sink.registerAll i rs).move d :=
  Sink.registerAll_map (register_move d) i rs

/-- When only the header moves, everything at the plain image base stays where it is. -/
theorem move_header (d : UInt64) (i : Image) : i.move ⟨d, 0⟩ =
    { i with
      regions := i.regions.map (Region.move d)
      dataVariables := moveKeys d (DataVariable.move d) i.dataVariables
      symbols := i.symbols.map fun s =>
        if s.kind = .data then { s with address := s.address + d } else s } := by
  have sections : i.sections.map (ImageSection.move 0) = i.sections :=
    List.map_id'' (fun s => by simp [ImageSection.move]) _
  have symbols (s : Symbol) : s.move ⟨d, 0⟩ =
      if s.kind = .data then { s with address := s.address + d } else s := by
    rcases s with ⟨_ | _, address, name⟩ <;> simp [Symbol.move, Displacement.ofSymbolKind]
  have entry : i.entryPoint?.map (· + 0) = i.entryPoint? := by simp
  have functions : moveKeys 0 (FunctionSignature.move 0) i.functions = i.functions :=
    moveKeys_zero _ _ fun f => by simp [FunctionSignature.move]
  rw [move, sections, funext symbols, entry, functions]

/-- The function at the entry point moves with it. -/
theorem entrySignature?_move (d : Displacement) (i : Image) :
    (i.move d).entrySignature? = i.entrySignature?.map (FunctionSignature.move d.contents) := by
  unfold entrySignature? move
  cases i.entryPoint? with
  | none => rfl
  | some a => exact getElem?_moveKeys d.contents _ i.functions a

end Image

end TeImage
