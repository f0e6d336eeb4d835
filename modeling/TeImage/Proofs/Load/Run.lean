/-
What a load does to a sink, said without the sink: `Load.plan` and `Load.annotationPlan` compute
the registrations of a load and of an annotation, or the reason why there are none, from the input
alone. A run either takes up the whole plan or leaves the sink as it was (`loadInto_follows`,
`annotate_follows`), whatever the sink is.
-/
import Mathlib.Tactic
import TeImage.Load

namespace TeImage

/-! ## Running on a state -/

namespace LoadM

variable {σ α β : Type}

@[simp] theorem value_runOn_pure (a : α) (s : σ) :
    ((pure a : LoadM σ α).runOn s).value = (.ok a, s) := rfl

@[simp] theorem value_runOn_log (lines : List LogLine) (s : σ) :
    ((log lines).runOn s).value = (.ok (), s) := rfl

@[simp] theorem value_runOn_ofLogged (x : Logged α) (s : σ) :
    ((ofLogged x).runOn s).value = (.ok x.value, s) := rfl

@[simp] theorem value_runOn_ofExcept (x : Except LoadError α) (s : σ) :
    ((ofExcept x).runOn s).value = (x, s) := rfl

/-- What stands behind `x` goes on from what `x` ended with. -/
theorem runOn_bind (x : LoadM σ α) (f : α → LoadM σ β) (s : σ) :
    (x >>= f).runOn s = x.runOn s >>= fun p => ExceptT.bindCont f p.1 p.2 := rfl

/-- A failure skips what stands behind it and keeps the state. -/
theorem value_runOn_bind (x : LoadM σ α) (f : α → LoadM σ β) (s : σ) :
    ((x >>= f).runOn s).value = match (x.runOn s).value with
      | (.ok a, s) => ((f a).runOn s).value
      | (.error e, s) => (.error e, s) := by
  rw [runOn_bind, Logged.value_bind]
  rcases (x.runOn s).value with ⟨e | a, s⟩ <;> rfl

theorem value_runOn_bind_ok {x : LoadM σ α} {s s' : σ} {a : α}
    (h : (x.runOn s).value = (.ok a, s')) (f : α → LoadM σ β) :
    ((x >>= f).runOn s).value = ((f a).runOn s').value := by
  rw [value_runOn_bind, h]

theorem value_runOn_bind_error {x : LoadM σ α} {s s' : σ} {e : LoadError}
    (h : (x.runOn s).value = (.error e, s')) (f : α → LoadM σ β) :
    ((x >>= f).runOn s).value = (.error e, s') := by
  rw [value_runOn_bind, h]

variable [Sink σ]

@[simp] theorem value_runOn_register (r : Registration) (s : σ) :
    ((register r).runOn s).value = (.ok (), Sink.register s r) := rfl

@[simp] theorem value_runOn_registerAll (rs : List Registration) (s : σ) :
    ((registerAll rs).runOn s).value = (.ok (), Sink.registerAll s rs) := by
  induction rs generalizing s with
  | nil => rfl
  | cons r rs ih =>
    show ((register r >>= fun _ => registerAll rs).runOn s).value = _
    rw [value_runOn_bind_ok (value_runOn_register r s), ih]
    rfl

end LoadM

theorem Sink.registerAll_append {σ : Type} [Sink σ] (s : σ) (rs rs' : List Registration) :
    registerAll s (rs ++ rs') = registerAll (registerAll s rs) rs' := List.foldl_append

/-- A change of the state that goes along with a change of each registration goes along with all
of them. -/
theorem Sink.registerAll_map {σ : Type} [Sink σ] {f : σ → σ} {g : Registration → Registration}
    (step : ∀ s r, register (f s) (g r) = f (register s r)) (s : σ) (rs : List Registration) :
    registerAll (f s) (rs.map g) = f (registerAll s rs) := by
  rw [registerAll, List.foldl_map]
  exact List.foldl_hom f fun s r => step s r

/-! ## Following a plan -/

namespace LoadM

variable {σ α : Type} [Sink σ]

/-- The outcome of `x` is the plan's, and `x` registers all that the plan lists, or nothing. -/
def Follows (x : LoadM σ Unit) (plan : Except LoadError (List Registration)) : Prop :=
  ∀ s : σ, (x.runOn s).value = match plan with
    | .ok rs => (.ok (), Sink.registerAll s rs)
    | .error e => (.error e, s)

theorem follows_throw (e : LoadError) : Follows (throw e : LoadM σ Unit) (.error e) := fun _ => rfl

theorem follows_register (r : Registration) : Follows (register r : LoadM σ Unit) (.ok [r]) :=
  fun _ => rfl

theorem follows_registerAll (rs : List Registration) :
    Follows (registerAll rs : LoadM σ Unit) (.ok rs) := value_runOn_registerAll rs

theorem Follows.andThen {x y : LoadM σ Unit} {rs rs' : List Registration} (hx : Follows x (.ok rs))
    (hy : Follows y (.ok rs')) : Follows (do x; y) (.ok (rs ++ rs')) := by
  intro s
  rw [value_runOn_bind_ok (hx s), hy]
  exact congrArg (Prod.mk _) (Sink.registerAll_append s rs rs').symm

/-- A stage that cannot fail and registers nothing is not seen in the plan. -/
theorem Follows.after {x : LoadM σ α} {a : α} (hx : ∀ s, (x.runOn s).value = (.ok a, s))
    {f : α → LoadM σ Unit} {plan : Except LoadError (List Registration)} (hf : Follows (f a) plan) :
    Follows (x >>= f) plan := by
  intro s
  rw [value_runOn_bind_ok (hx s)]
  exact hf s

/-- A stage that only computes passes its failure on, or its value. -/
theorem Follows.computing {x : LoadM σ α} {r : Except LoadError α}
    (hx : ∀ s, (x.runOn s).value = (r, s)) {f : α → LoadM σ Unit}
    {plan : α → Except LoadError (List Registration)} (hf : ∀ a, r = .ok a → Follows (f a) (plan a)) :
    Follows (x >>= f) (r >>= plan) := by
  intro s
  cases r with
  | error e => exact value_runOn_bind_error (hx s) f
  | ok a => rw [value_runOn_bind_ok (hx s)]; exact hf a rfl s

theorem Follows.state_of_error {x : LoadM σ Unit} {plan : Except LoadError (List Registration)}
    (h : Follows x plan) {s s' : σ} {e : LoadError} (he : (x.runOn s).value = (.error e, s')) :
    s' = s := by
  rw [h s] at he
  cases plan with
  | error e' => cases he; rfl
  | ok rs => cases he

theorem Follows.value_runOn_ok {x : LoadM σ Unit} {rs : List Registration} (h : Follows x (.ok rs))
    (s : σ) : (x.runOn s).value = (.ok (), Sink.registerAll s rs) := h s

/-- A run that does not fail has a plan. -/
theorem Follows.exists_plan {x : LoadM σ Unit} {plan : Except LoadError (List Registration)}
    (h : Follows x plan) {s : σ} (hok : (x.runOn s).value.1 = .ok ()) : ∃ rs, plan = .ok rs := by
  rw [h s] at hok
  cases plan with
  | error e => cases hok
  | ok rs => exact ⟨rs, rfl⟩

end LoadM

/-! ## Plans -/

namespace Load

/-- What the annotation of a header registers. -/
def annotationPlan (h : Header) (length : Nat) (source : TypeSource) :
    Except LoadError (List Registration) := do
  let l ← Layout.compute h length
  return (Annotations.build h l (Platform.ofMachine h.machine) source).value.registrations

/-- What the load of an image registers, from its parts. -/
def registrations (h : Header) (l : Layout) (sections : List ImageSection) (a : Annotations) :
    List Registration :=
  [.platform (Platform.ofMachine h.machine)] ++ l.regions.map .region
    ++ sections.map .imageSection ++ a.registrations
    ++ [.entryPoint h.entryPoint, .symbol ⟨.function, h.entryPoint, entryPointName⟩,
      .functionType (.moduleEntryPoint h.entryPoint (Platform.ofMachine h.machine))]

/-- What the load of a byte string registers. -/
def plan (data : Bytes) (source : TypeSource) : Except LoadError (List Registration) := do
  if !isTerse data then throw .notTerse
  let h ← parseHeader data
  let l ← Layout.compute h data.length
  let sections ← ImageSection.table data h
  let annotations := Annotations.build h l (Platform.ofMachine h.machine) source
  return registrations h l sections annotations.value

end Load

theorem bind_eq_ok {ε α β : Type} {x : Except ε α} {f : α → Except ε β} {b : β}
    (h : x >>= f = .ok b) : ∃ a, x = .ok a ∧ f a = .ok b := by
  cases x with
  | error e => cases h
  | ok a => exact ⟨a, rfl, h⟩

/-- What stands behind the registrations of a load. -/
theorem Load.plan_eq_ok {data : Bytes} {source : TypeSource} {rs : List Registration}
    (h : plan data source = .ok rs) :
    isTerse data = true ∧ ∃ hd l sections, parseHeader data = .ok hd ∧
      Layout.compute hd data.length = .ok l ∧ ImageSection.table data hd = .ok sections ∧
      rs = registrations hd l sections
        (Annotations.build hd l (Platform.ofMachine hd.machine) source).value := by
  unfold plan at h
  cases ht : isTerse data with
  | false => rw [ht] at h; cases h
  | true =>
    rw [ht] at h
    obtain ⟨hd, hh, h⟩ := bind_eq_ok h
    obtain ⟨l, hl, h⟩ := bind_eq_ok h
    obtain ⟨sections, hs, h⟩ := bind_eq_ok h
    cases h
    exact ⟨rfl, hd, l, sections, hh, hl, hs, rfl⟩

/-! ## Runs follow their plans -/

section

variable {σ : Type}

theorem value_runOn_layout (h : Header) (length : Nat) (s : σ) :
    ((Load.layout h length).runOn s).value = (Layout.compute h length, s) := by
  rw [Load.layout, LoadM.value_runOn_bind, LoadM.value_runOn_ofExcept]
  cases Layout.compute h length <;> rfl

theorem value_runOn_sections (data : Bytes) (h : Header) (s : σ) :
    ((Load.sections data h).runOn s).value = (ImageSection.table data h, s) := by
  rw [Load.sections, LoadM.value_runOn_bind, LoadM.value_runOn_ofExcept]
  cases ImageSection.table data h <;> rfl

variable [Sink σ]

theorem annotate_follows (h : Header) (length : Nat) (source : TypeSource) :
    LoadM.Follows (Load.annotate h length source : LoadM σ Unit)
      (Load.annotationPlan h length source) := by
  refine .computing (value_runOn_layout h length) fun l _ => ?_
  exact .after (LoadM.value_runOn_ofLogged _) (LoadM.follows_registerAll _)

theorem loadInto_follows (data : Bytes) (source : TypeSource) :
    LoadM.Follows (loadInto data source : LoadM σ Unit) (Load.plan data source) := by
  unfold loadInto Load.plan
  cases ht : isTerse data with
  | false => exact LoadM.follows_throw .notTerse
  | true =>
    refine .computing (LoadM.value_runOn_ofExcept (parseHeader data)) fun h _ => ?_
    refine .after (LoadM.value_runOn_log (Load.remarks h)) ?_
    refine .computing (value_runOn_layout h data.length) fun l _ => ?_
    refine .computing (value_runOn_sections data h) fun sections _ => ?_
    refine .after (LoadM.value_runOn_ofLogged _) ?_
    -- nothing can fail from here on, so the plan is a list that the registrations add up to
    show LoadM.Follows _ (.ok (Load.registrations h l sections _))
    simp only [Load.registrations, List.append_assoc]
    refine (LoadM.follows_register _).andThen ?_
    refine (LoadM.follows_registerAll _).andThen (.after (LoadM.value_runOn_log _) ?_)
    refine (LoadM.follows_registerAll _).andThen ?_
    refine (LoadM.follows_registerAll _).andThen (.after (LoadM.value_runOn_log _) ?_)
    exact (LoadM.follows_register _).andThen <|
      (LoadM.follows_register _).andThen (LoadM.follows_register _)

end

end TeImage
