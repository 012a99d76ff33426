import Mathlib.Data.List.Forall2

/-!
# Steps that may fail

When a chain of steps succeeds: each step did, on what the one before it yielded.
-/

namespace ReverseProxy

variable {ε ε' α β : Type}

@[simp]
theorem ok_bind (value : α) (next : α → Except ε β) : (Except.ok value >>= next) = next value := rfl

@[simp]
theorem error_bind (failure : ε) (next : α → Except ε β) :
    (Except.error failure >>= next) = .error failure := rfl

@[simp]
theorem map_ok (f : α → β) (value : α) : f <$> (Except.ok value : Except ε α) = .ok (f value) := rfl

@[simp]
theorem map_error (f : α → β) (failure : ε) :
    f <$> (Except.error failure : Except ε α) = .error failure := rfl

@[simp]
theorem pure_eq_ok (value : α) : (pure value : Except ε α) = .ok value := rfl

/-- Both steps succeed. -/
theorem bind_eq_ok {first : Except ε α} {next : α → Except ε β} {value : β} :
    first >>= next = .ok value ↔ ∃ middle, first = .ok middle ∧ next middle = .ok value := by
  cases first <;> simp

/-- Either the first step fails, or the second one does. -/
theorem bind_eq_error {first : Except ε α} {next : α → Except ε β} {failure : ε} :
    first >>= next = .error failure ↔
      first = .error failure ∨ ∃ middle, first = .ok middle ∧ next middle = .error failure := by
  cases first <;> simp

/-- What comes next matters only for the value it is given. -/
theorem bind_congr_ok {first : Except ε α} {next other : α → Except ε β}
    (hsame : ∀ value, first = .ok value → next value = other value) :
    first >>= next = first >>= other := by
  cases first with
  | error failure => rfl
  | ok value => exact hsame value rfl

theorem map_eq_ok {f : α → β} {first : Except ε α} {value : β} :
    f <$> first = .ok value ↔ ∃ middle, first = .ok middle ∧ f middle = value := by
  cases first <;> simp

theorem except_map_eq_ok {f : α → β} {first : Except ε α} {value : β} :
    first.map f = .ok value ↔ ∃ middle, first = .ok middle ∧ f middle = value :=
  map_eq_ok

theorem exists_of_isOk {result : Except ε α} (hok : result.isOk = true) :
    ∃ value, result = .ok value := by
  cases result with
  | ok value => exact ⟨value, rfl⟩
  | error => cases hok

theorem mapError_eq_ok {f : ε → ε'} {first : Except ε α} {value : α} :
    first.mapError f = .ok value ↔ first = .ok value := by
  cases first <;> simp [Except.mapError]

theorem mapError_eq_error {f : ε → ε'} {first : Except ε α} {failure : ε'} :
    first.mapError f = .error failure ↔ ∃ cause, first = .error cause ∧ f cause = failure := by
  cases first <;> simp [Except.mapError]

/-- Every step succeeds. -/
theorem mapM_eq_ok {f : α → Except ε β} {values : List α} {results : List β} :
    values.mapM f = .ok results ↔
      List.Forall₂ (fun value result => f value = .ok result) values results := by
  induction values generalizing results with
  | nil => simp [eq_comm]
  | cons value values ih =>
      rw [List.mapM_cons, bind_eq_ok]
      constructor
      · rintro ⟨result, hresult, hrest⟩
        obtain ⟨others, hothers, hjoined⟩ := bind_eq_ok.mp hrest
        cases hjoined
        exact .cons hresult (ih.mp hothers)
      · rintro (_ | ⟨hresult, hothers⟩)
        exact ⟨_, hresult, bind_eq_ok.mpr ⟨_, ih.mpr hothers, rfl⟩⟩

/-- The first step that fails decides. -/
theorem mapM_eq_error {f : α → Except ε β} {values : List α} {failure : ε} :
    values.mapM f = .error failure ↔
      ∃ before value after, values = before ++ value :: after ∧
        (∀ earlier ∈ before, ∃ result, f earlier = .ok result) ∧ f value = .error failure := by
  induction values with
  | nil => simp
  | cons value values ih =>
      rw [List.mapM_cons, bind_eq_error]
      constructor
      · rintro (hvalue | ⟨result, hresult, hrest⟩)
        · exact ⟨[], value, values, rfl, nofun, hvalue⟩
        · rcases bind_eq_error.mp hrest with hothers | ⟨_, -, ⟨⟩⟩
          obtain ⟨before, other, after, rfl, hbefore, hother⟩ := ih.mp hothers
          exact ⟨value :: before, other, after, rfl,
            List.forall_mem_cons.mpr ⟨⟨result, hresult⟩, hbefore⟩, hother⟩
      · rintro ⟨before, other, after, hvalues, hbefore, hother⟩
        cases before with
        | nil =>
            obtain ⟨rfl, rfl⟩ := List.cons.inj hvalues
            exact .inl hother
        | cons first before =>
            obtain ⟨rfl, rfl⟩ := List.cons.inj hvalues
            obtain ⟨⟨result, hresult⟩, hbefore⟩ := List.forall_mem_cons.mp hbefore
            have hothers := ih.mpr ⟨before, other, after, rfl, hbefore, hother⟩
            exact .inr ⟨result, hresult, bind_eq_error.mpr (.inl hothers)⟩

theorem forall₂_of_map_eq {γ : Type} {f : α → γ} {g : β → γ} {values : List α} {others : List β}
    (hmap : values.map f = others.map g) :
    List.Forall₂ (fun value other => f value = g other) values others := by
  rw [← List.forall₂_map_right_iff, ← List.forall₂_map_left_iff, List.forall₂_eq_eq_eq]
  exact hmap

/-- Results that exist one by one exist together. -/
theorem exists_forall₂ {related : α → β → Prop} {values : List α}
    (hall : ∀ value ∈ values, ∃ result, related value result) :
    ∃ results, List.Forall₂ related values results := by
  induction values with
  | nil => exact ⟨[], .nil⟩
  | cons value values ih =>
      obtain ⟨⟨result, hresult⟩, hothers⟩ := List.forall_mem_cons.mp hall
      obtain ⟨results, hresults⟩ := ih hothers
      exact ⟨result :: results, .cons hresult hresults⟩

/-- What holds of every step's result. -/
theorem forall_of_forall₂ {related : α → β → Prop} {holds : β → Prop} {values : List α}
    {results : List β} (hall : List.Forall₂ related values results)
    (hholds : ∀ value result, related value result → holds result) :
    ∀ result ∈ results, holds result := by
  induction hall with
  | nil => exact fun _ hmem => (List.not_mem_nil hmem).elim
  | cons hfirst _ ih => exact List.forall_mem_cons.mpr ⟨hholds _ _ hfirst, ih⟩

/-- A condition on the results carries a relation over to a stronger one. -/
theorem forall₂_imp_of_forall {related stronger : α → β → Prop} {holds : β → Prop}
    {values : List α} {results : List β} (hall : List.Forall₂ related values results)
    (hresults : ∀ result ∈ results, holds result)
    (hstronger : ∀ value result, related value result → holds result → stronger value result) :
    List.Forall₂ stronger values results := by
  induction hall with
  | nil => exact .nil
  | cons hfirst _ ih =>
      obtain ⟨hresult, hothers⟩ := List.forall_mem_cons.mp hresults
      exact .cons (hstronger _ _ hfirst hresult) (ih hothers)

theorem forall₂_iff_forall {related stronger : α → β → Prop} {holds : α → Prop}
    {values : List α} {results : List β} (hall : List.Forall₂ related values results)
    (hiff : ∀ value result, related value result → (stronger value result ↔ holds value)) :
    List.Forall₂ stronger values results ↔ ∀ value ∈ values, holds value := by
  induction hall with
  | nil => simp
  | cons hfirst _ ih => rw [List.forall₂_cons, List.forall_mem_cons, hiff _ _ hfirst, ih]

theorem forall₂_toList_iff {related : α → β → Prop} {value : Option α} {result : Option β} :
    List.Forall₂ related value.toList result.toList ↔ Option.Rel related value result := by
  cases value <;> cases result <;> simp

/-- What is related to at most one result is at most one value. -/
theorem exists_toList_of_forall₂ {related : α → β → Prop} {values : List α} {result : Option β}
    (hall : List.Forall₂ related values result.toList) :
    ∃ value : Option α, values = value.toList := by
  cases result with
  | none => exact ⟨none, List.forall₂_nil_right_iff.mp hall⟩
  | some result =>
      obtain ⟨value, rest, -, hrest, rfl⟩ := List.forall₂_cons_right_iff.mp hall
      exact ⟨some value, by rw [List.forall₂_nil_right_iff.mp hrest]; rfl⟩

theorem forM_eq_ok {f : α → Except ε Unit} {values : List α} :
    values.forM f = .ok () ↔ ∀ value ∈ values, f value = .ok () := by
  induction values with
  | nil => exact ⟨fun _ _ hmem => (List.not_mem_nil hmem).elim, fun _ => rfl⟩
  | cons value values ih =>
      change (f value >>= fun _ => values.forM f) = .ok () ↔ _
      rw [bind_eq_ok]
      constructor
      · rintro ⟨⟨⟩, hvalue, hrest⟩
        exact List.forall_mem_cons.mpr ⟨hvalue, ih.mp hrest⟩
      · intro hall
        obtain ⟨hvalue, hrest⟩ := List.forall_mem_cons.mp hall
        exact ⟨(), hvalue, ih.mpr hrest⟩

/-- If the step fails, it does so for such a reason. -/
structure FailsBy (reason : ε → Prop) (result : Except ε α) : Prop where
  reason_of_eq : ∀ failure, result = .error failure → reason failure

namespace FailsBy

variable {reason other : ε → Prop} {first : Except ε α}

theorem ok {value : α} : FailsBy reason (.ok value : Except ε α) := ⟨nofun⟩

theorem error {failure : ε} (hreason : reason failure) :
    FailsBy reason (.error failure : Except ε α) := by
  constructor
  rintro _ ⟨⟩
  exact hreason

/-- Reasons may be weakened. -/
theorem mono (hfirst : FailsBy reason first) (hmono : ∀ failure, reason failure → other failure) :
    FailsBy other first :=
  ⟨fun failure hfailure => hmono failure (hfirst.reason_of_eq failure hfailure)⟩

theorem bind {next : α → Except ε β} (hfirst : FailsBy reason first)
    (hnext : ∀ value, first = .ok value → FailsBy reason (next value)) :
    FailsBy reason (first >>= next) := by
  constructor
  intro failure hfailure
  rcases bind_eq_error.mp hfailure with hstops | ⟨value, hvalue, hstops⟩
  · exact hfirst.reason_of_eq failure hstops
  · exact (hnext value hvalue).reason_of_eq failure hstops

theorem map {f : α → β} (hfirst : FailsBy reason first) : FailsBy reason (f <$> first) := by
  cases first with
  | ok value => exact ok
  | error failure => exact error (hfirst.reason_of_eq failure rfl)

/-- A list of steps fails by what one of them fails by. -/
theorem mapM {read : α → Except ε β} {values : List α}
    (hread : ∀ value ∈ values, FailsBy reason (read value)) :
    FailsBy reason (values.mapM read) := by
  constructor
  intro failure hfailure
  obtain ⟨before, value, after, rfl, -, hstops⟩ := mapM_eq_error.mp hfailure
  exact (hread value (List.mem_append_right before List.mem_cons_self)).reason_of_eq failure hstops

theorem forM {check : α → Except ε Unit} {values : List α}
    (hcheck : ∀ value ∈ values, FailsBy reason (check value)) :
    FailsBy reason (values.forM check) := by
  induction values with
  | nil => exact .ok
  | cons value values ih =>
      obtain ⟨hvalue, hothers⟩ := List.forall_mem_cons.mp hcheck
      apply hvalue.bind
      intro _ _
      exact ih hothers

end FailsBy

/-- Parts that are each read back are read back together. -/
theorem mapM_map_some {write : α → β} {read? : β → Option α} {values : List α}
    (hread : ∀ value ∈ values, read? (write value) = some value) :
    (values.map write).mapM read? = some values := by
  induction values with
  | nil => rfl
  | cons value values ih =>
      rw [List.map_cons, List.mapM_cons, hread value List.mem_cons_self,
        ih fun other hother => hread other (List.mem_cons_of_mem value hother)]
      rfl

theorem mapM_eq_some {f : α → Option β} {values : List α} {results : List β} :
    values.mapM f = some results ↔
      List.Forall₂ (fun value result => f value = some result) values results := by
  induction values generalizing results with
  | nil => simp [eq_comm]
  | cons value values ih =>
      rw [List.mapM_cons]
      constructor
      · intro hresults
        obtain ⟨result, hresult, hrest⟩ := Option.bind_eq_some_iff.mp hresults
        obtain ⟨others, hothers, hjoined⟩ := Option.bind_eq_some_iff.mp hrest
        cases hjoined
        exact .cons hresult (ih.mp hothers)
      · rintro (_ | ⟨hresult, hothers⟩)
        rw [hresult, ih.mpr hothers]
        rfl

theorem isSome_mapM {f : α → Option β} {values : List α} :
    (values.mapM f).isSome = true ↔ ∀ value ∈ values, (f value).isSome = true := by
  induction values with
  | nil => exact iff_of_true rfl fun _ hmem => (List.not_mem_nil hmem).elim
  | cons value values ih =>
      rw [List.forall_mem_cons, ← ih, List.mapM_cons]
      cases f value <;> cases values.mapM f <;> simp

end ReverseProxy
