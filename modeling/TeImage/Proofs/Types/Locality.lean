/-
What the size of a type depends on: the definitions of the names that it reaches by value, and
nothing else in the table. So a definition of any other name changes no size, and a size that was
found stays when names are added to the table, since all the names it needs are there already
(`size_depends_on_reached_names`).
-/
import TeImage.Proofs.Image.History
import TeImage.Proofs.Types.Likeness
import TeImage.Proofs.Types.Mentions
import Mathlib.Tactic

namespace TeImage

namespace TypeNode

variable {pointerSize v : UInt64} {types types' : TypeTable} {a b : TypeNode}

/-! ## Two tables -/

/-- The tables say the same of every name that the node reaches by value. -/
def AgreeOn (types types' : TypeTable) (a : TypeNode) : Prop :=
  ∀ name, Reaches types a name → types name = types' name

theorem AgreeOn.part {k : Nat} (h : AgreeOn types types' a) (hb : Part types a k b) :
    AgreeOn types types' b :=
  fun name hname => h name (.of_part hb hname)

/-- Where the tables agree, each node is like itself. -/
theorem likeness_agreeOn : Likeness types types' fun a b => a = b ∧ AgreeOn types types' a := by
  rintro a _ ⟨rfl, agree⟩
  refine .refl (fun _ b part => ⟨rfl, agree.part part⟩) ?_
  rintro name rfl
  rw [← agree name (reaches_named types name)]
  cases hd : types name with
  | none => exact .none
  | some d => exact .some ⟨rfl, agree.part (.meaning hd)⟩

theorem AgreeOn.size_eq (h : AgreeOn types types' a) :
    a.size pointerSize types = a.size pointerSize types' :=
  likeness_agreeOn.size_eq ⟨rfl, h⟩

/-- A type with a size reaches no name without a definition. -/
theorem isSome_of_reaches {name : String} (h : a.size pointerSize types = some v)
    (reaches : Reaches types a name) : (types name).isSome := by
  obtain ⟨k, hk⟩ := reaches_iff.mp reaches
  have sized : (a.sizeWithin pointerSize types TypeRef.maxLevels).isSome := by
    rw [← size_eq_sizeWithin, h]
    rfl
  exact isSome_of_isSome_sizeWithin (sizeWithin_meets hk sized)

/-- A size stays when names are added. -/
theorem size_of_extends (extended : ∀ name d, types name = some d → types' name = some d)
    (h : a.size pointerSize types = some v) : a.size pointerSize types' = some v := by
  have agree : AgreeOn types types' a := by
    intro name reaches
    obtain ⟨d, hd⟩ := Option.isSome_iff_exists.mp (isSome_of_reaches h reaches)
    rw [hd, extended name d hd]
  rw [← agree.size_eq, h]

end TypeNode

/-! ## Images -/

namespace Image

open TypeNode

variable {i : Image} {d : TypeDef} {name : String}

theorem typeNamed?_register_of_ne (h : d.name ≠ name) :
    (i.register (.type d)).typeNamed? name = i.typeNamed? name := by
  show (i.types.insert d.name d)[name]? = i.types[name]?
  rw [Std.ExtTreeMap.getElem?_insert, if_neg (mt Std.LawfulEqCmp.eq_of_compare h)]

/-- A definition of a name that is not reached changes no size. -/
theorem typeSize?_register (h : ¬ Reaches i.typeNamed? (.ref (.named name)) d.name) :
    (i.register (.type d)).typeSize? name = i.typeSize? name := by
  have agree : AgreeOn i.typeNamed? (i.register (.type d)).typeNamed? (.ref (.named name)) :=
    fun other reaches => (typeNamed?_register_of_ne fun same => h (same ▸ reaches)).symm
  unfold typeSize?
  rw [← agree name (reaches_named _ name)]
  refine Option.bind_congr fun found hfound => ?_
  exact (agree.part (.meaning hfound)).size_eq.symm

end Image

/-! ## Reached names -/

open TypeNode

/-- The size of a type is a matter of the names that it reaches by value: it is the same in all
tables that agree on these, it stays when a session defines another name, and once it is there it
stays in every larger table. -/
theorem size_depends_on_reached_names :
    (∀ (pointerSize : UInt64) (types types' : TypeTable) (a : TypeNode),
      AgreeOn types types' a → a.size pointerSize types = a.size pointerSize types') ∧
    (∀ (steps : List Step) (i : Image) (d : TypeDef) (name : String),
      ¬ Reaches (imageAfter steps i).typeNamed? (.ref (.named name)) d.name →
      (imageAfter (steps ++ [.register (.type d)]) i).typeSize? name =
        (imageAfter steps i).typeSize? name) ∧
    ∀ (pointerSize v : UInt64) (types types' : TypeTable) (a : TypeNode),
      (∀ name d, types name = some d → types' name = some d) →
      a.size pointerSize types = some v → a.size pointerSize types' = some v := by
  refine ⟨fun _ _ _ _ agree => agree.size_eq, fun steps i d name h => ?_,
    fun _ _ _ _ _ extended h => size_of_extends extended h⟩
  have after : imageAfter (steps ++ [.register (.type d)]) i =
      (imageAfter steps i).register (.type d) := by
    rw [imageAfter_eq_registerAll, List.flatMap_append, Sink.registerAll_append,
      imageAfter_eq_registerAll]
    rfl
  rw [after, Image.typeSize?_register h]

/-- The rest of a list stands behind a pointer, and may be anything. -/
theorem size_depends_on_reached_names_list :
    let word : TypeDef := ⟨"WORD", .aliasOf .u16⟩
    let list : TypeDef :=
      ⟨"LIST", .struct [⟨"Value", .named "WORD"⟩, ⟨"Rest", .pointer (.named "REST")⟩]⟩
    let rest : TypeDef := ⟨"REST", .aliasOf .u64⟩
    let steps : List Step := [.register (.type word), .register (.type list)]
    let types : TypeTable := .ofList [word, list]
    let types' : TypeTable := .ofList [word, list, rest]
    (AgreeOn types types' (.ref (.named "LIST")) ∧
      (ref (.named "LIST")).size 4 types = (ref (.named "LIST")).size 4 types') ∧
    (¬ Reaches (imageAfter steps .empty).typeNamed? (.ref (.named "LIST")) "REST" ∧
      (imageAfter (steps ++ [.register (.type rest)]) .empty).typeSize? "LIST" = some 10) ∧
    (definition list).size 8 types' = some 10 := by
  intro word list rest steps types types'
  have reached : ∀ name, Reaches types (.ref (.named "LIST")) name →
      name = "LIST" ∨ name = "WORD" := by
    rintro name ⟨_, ⟨⟩, links⟩
    induction links with
    | refl => exact .inl rfl
    | tail _ link ih =>
      obtain ⟨d, hd, mentions⟩ := link
      rcases ih with rfl | rfl
      · obtain rfl : list = d := Option.some.inj hd
        cases mentions with
        | field hf h =>
          rcases List.mem_pair.mp hf with rfl | rfl
          · cases h
            exact .inr rfl
          · cases h
      · obtain rfl : word = d := Option.some.inj hd
        cases mentions with
        | target h => cases h
  have unreached : ¬ Reaches types (.ref (.named "LIST")) "REST" := by
    intro h
    rcases reached _ h with h | h <;> contradiction
  have agree : AgreeOn types types' (.ref (.named "LIST")) := by
    intro name h
    rcases reached name h with rfl | rfl <;> rfl
  have table : (imageAfter steps .empty).typeNamed? = types := by
    funext name
    rw [Image.typeNamed?, imageAfter_eq_registerAll, Image.types_registerAll]
    exact Option.or_none
  have sized : (imageAfter steps .empty).typeSize? "LIST" = some 10 := by
    rw [Image.typeSize?, table]
    rfl
  have extended : ∀ name d, types name = some d → types' name = some d := by
    intro name d h
    by_cases hrest : "REST" = name
    · subst hrest
      cases h
    · exact (List.find?_cons_of_neg (by simpa using hrest)).trans h
  obtain ⟨same, session, larger⟩ := size_depends_on_reached_names
  rw [table]
  refine ⟨⟨agree, same 4 types types' _ agree⟩, ⟨unreached, ?_⟩, ?_⟩
  · exact (session steps .empty rest "LIST" (table ▸ unreached)).trans sized
  · exact larger 8 10 types types' (.definition list) extended rfl

end TeImage
