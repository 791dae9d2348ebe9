import TransportNats.Errors

/-!
What the classification of an error depends on.

`MapError` never looks at the shape of an error. It looks at what `errors.Is`
and `errors.As` find in it, so two errors in which they find the same are of one
kind, and layers around an error change nothing. An error whose type has an `Is`
method, such as a JetStream API error that is one of the sentinels, is the join
of itself with the sentinels it is: the two searches find the same in both.
-/

namespace TransportNats

/-! ### Application errors -/

namespace Err

/-- The kind of an application error. -/
def kind : Err → Option Kind
  | .app kind _ | .appOf kind _ _ => some kind
  | .sentinel _ | .api _ _ | .other _ _ | .wrap _ _ _ | .join _ _ => none

def IsAppError (err : Err) : Prop := err.kind.isSome

/-- Somewhere in the tree there is an application error. -/
def ContainsAppError : Err → Prop
  | .sentinel _ | .api _ _ | .other _ _ => False
  | .wrap _ _ cause => cause.ContainsAppError
  | .join left right => left.ContainsAppError ∨ right.ContainsAppError
  | .app _ _ | .appOf _ _ _ => True

/-- `errors.As` misses no application error. -/
theorem asAppError_eq_none_iff (err : Err) : err.asAppError = none ↔ ¬ err.ContainsAppError := by
  induction err with
  | wrap text retryAfter cause ih => exact ih
  | join left right ihl ihr =>
      rw [asAppError, ContainsAppError, not_or, ← ihl, ← ihr]
      cases left.asAppError <;> simp
  | _ => simp [asAppError, ContainsAppError]

theorem IsAppError.asAppError {err : Err} (h : err.IsAppError) : err.asAppError = some err := by
  cases err <;> first | rfl | simp [IsAppError, kind] at h

theorem isAppError_of_asAppError {err appErr : Err} (h : err.asAppError = some appErr) :
    appErr.IsAppError := by
  induction err with
  | wrap text retryAfter cause ih => exact ih h
  | join left right ihl ihr =>
      rw [Err.asAppError] at h
      cases hl : left.asAppError with
      | some found =>
          rw [hl] at h
          exact ihl (hl.trans h)
      | none =>
          rw [hl] at h
          exact ihr h
  | app | appOf =>
      cases h
      rfl
  | _ => simp [Err.asAppError] at h

end Err

/-! ### The cases of `MapError` -/

/-- The result depends on the error only in that it is built around it. -/
def Surrounds (map : Err → Option Err) : Prop :=
  ∃ answer : Option (Kind × String), ∀ err, map err = answer.map fun a => .appOf a.1 a.2 err

theorem Surrounds.unknown : Surrounds fun _ => none := ⟨none, fun _ => rfl⟩

theorem Surrounds.ite {p : Prop} [Decidable p] {kind : Kind} {text : String}
    {map : Err → Option Err} (h : Surrounds map) :
    Surrounds fun err => if p then some (.appOf kind text err) else map err := by
  by_cases hp : p
  · exact ⟨some (kind, text), fun err => if_pos hp⟩
  · obtain ⟨answer, hanswer⟩ := h
    exact ⟨answer, fun err => (if_neg hp).trans (hanswer err)⟩

theorem surrounds_mapAPIStatus (status : ℤ) : Surrounds fun err => mapAPIStatus err status :=
  .ite (.ite (.ite (.ite (.ite (.ite (.ite (.ite .unknown)))))))

/-- `mapJetStreamAPIError` once the two searches for an API error are done. -/
def mapFound (nats jetstream : Option (Option ℤ)) (err : Err) : Option Err :=
  match nats with
  | some (some code) => mapAPIStatus err code
  | _ =>
      match jetstream with
      | some (some code) => mapAPIStatus err code
      | _ => none

theorem mapJetStreamAPIError_eq_mapFound (err : Err) :
    mapJetStreamAPIError err =
      mapFound (err.asJetStreamError .nats) (err.asJetStreamError .jetstream) err := rfl

theorem surrounds_mapFound (nats jetstream : Option (Option ℤ)) :
    Surrounds (mapFound nats jetstream) := by
  rcases nats with _ | _ | code
  · rcases jetstream with _ | _ | code
    · exact .unknown
    · exact .unknown
    · exact surrounds_mapAPIStatus code
  · rcases jetstream with _ | _ | code
    · exact .unknown
    · exact .unknown
    · exact surrounds_mapAPIStatus code
  · exact surrounds_mapAPIStatus code

/-- Without an application error in the tree, the result is one around it. -/
theorem mapError_eq_appOf {err : Err} (h : err.asAppError = none) :
    ∃ kind text, mapError err = .appOf kind text err := by
  unfold mapError
  rw [h]
  dsimp only
  split
  · exact ⟨_, _, rfl⟩
  · obtain ⟨answer, hanswer⟩ := surrounds_mapFound (err.asJetStreamError .nats)
      (err.asJetStreamError .jetstream)
    rw [mapJetStreamAPIError_eq_mapFound, hanswer]
    cases answer with
    | none => exact ⟨_, _, rfl⟩
    | some a => exact ⟨a.1, a.2, rfl⟩

theorem mapError_eq_of_asAppError {err appErr : Err} (h : err.asAppError = some appErr) :
    mapError err = appErr := by
  unfold mapError
  rw [h]

theorem isAppError_mapError (err : Err) : (mapError err).IsAppError := by
  cases h : err.asAppError with
  | some appErr =>
      rw [mapError_eq_of_asAppError h]
      exact Err.isAppError_of_asAppError h
  | none =>
      obtain ⟨kind, text, heq⟩ := mapError_eq_appOf h
      rw [heq]
      rfl

theorem mapError_mapError (err : Err) : mapError (mapError err) = mapError err :=
  mapError_eq_of_asAppError (isAppError_mapError err).asAppError

/-- A sentinel that was found before is found behind the application error. -/
theorem is_mapError {err : Err} (h : ¬ err.ContainsAppError) (s : Sentinel) :
    (mapError err).is s = err.is s := by
  obtain ⟨kind, text, heq⟩ := mapError_eq_appOf (err.asAppError_eq_none_iff.mpr h)
  rw [heq]
  rfl

/-! ### What the kind depends on -/

/-- The two searches find the same in both errors. -/
structure Alike (err err' : Err) : Prop where
  is : ∀ s, err'.is s = err.is s
  asAppError : err'.asAppError = err.asAppError
  asJetStreamError : ∀ client, err'.asJetStreamError client = err.asJetStreamError client

namespace Alike

variable {err err' err'' : Err}

theorem refl (err : Err) : Alike err err := ⟨fun _ => rfl, rfl, fun _ => rfl⟩

theorem trans (h : Alike err err') (h' : Alike err' err'') : Alike err err'' where
  is s := (h'.is s).trans (h.is s)
  asAppError := h'.asAppError.trans h.asAppError
  asJetStreamError client := (h'.asJetStreamError client).trans (h.asJetStreamError client)

theorem wrap (text : String) (retryAfter : Option ℤ) (err : Err) :
    Alike err (.wrap text retryAfter err) := ⟨fun _ => rfl, rfl, fun _ => rfl⟩

theorem mapError_kind (h : Alike err err') : (mapError err').kind = (mapError err).kind := by
  unfold mapError
  rw [h.asAppError]
  cases err.asAppError with
  | some appErr => rfl
  | none =>
      dsimp only
      simp only [h.is]
      cases mapErrorCases.find? fun c => c.1.any fun s => err.is s with
      | some c => rfl
      | none =>
          obtain ⟨answer, hanswer⟩ := surrounds_mapFound (err.asJetStreamError .nats)
            (err.asJetStreamError .jetstream)
          rw [mapJetStreamAPIError_eq_mapFound err', mapJetStreamAPIError_eq_mapFound err,
            h.asJetStreamError .nats, h.asJetStreamError .jetstream, hanswer, hanswer]
          cases answer <;> rfl

end Alike

/-! ### Layers -/

/-- The error inside the layers, the outermost first. -/
def Err.within (layers : List (String × Option ℤ)) (err : Err) : Err :=
  layers.foldr (fun layer cause => .wrap layer.1 layer.2 cause) err

theorem alike_within (layers : List (String × Option ℤ)) (err : Err) :
    Alike err (err.within layers) := by
  induction layers with
  | nil => exact .refl err
  | cons layer layers ih => exact ih.trans (.wrap layer.1 layer.2 _)

/-- `MapError`; a Go error is nil or a tree. -/
def mapErrorOf : Option Err → Option Err
  | none => none
  | some err => some (mapError err)

theorem mapErrorOf_stable :
    (∀ err, mapErrorOf err = none ↔ err = none) ∧
      (∀ err mapped, mapErrorOf err = some mapped → mapped.IsAppError) ∧
      (∀ err, mapErrorOf (mapErrorOf err) = mapErrorOf err) ∧
      (∀ (err : Err) layers,
        (mapErrorOf (some (err.within layers))).bind Err.kind =
          (mapErrorOf (some err)).bind Err.kind) ∧
      ∀ (err : Err) s, ¬ err.ContainsAppError → err.is s →
        ∃ mapped, mapErrorOf (some err) = some mapped ∧ mapped.is s := by
  refine ⟨?_, ?_, ?_, ?_, ?_⟩
  · rintro (_ | err) <;> simp [mapErrorOf]
  · rintro (_ | err) mapped h
    · cases h
    · cases h
      exact isAppError_mapError err
  · rintro (_ | err)
    · rfl
    · simp only [mapErrorOf, mapError_mapError]
  · intro err layers
    exact (alike_within layers err).mapError_kind
  · intro err s happ hs
    exact ⟨_, rfl, (is_mapError happ s).trans hs⟩

/-- A missing key that was joined to another error and wrapped. -/
def missingKey : Err :=
  .wrap "load profile" none
    (.join (.other "cache miss" none) (.sentinel (.jetstream .errKeyNotFound)))

theorem mapErrorOf_missingKey :
    ¬ missingKey.ContainsAppError ∧ missingKey.is (.jetstream .errKeyNotFound) ∧
      ∃ mapped, mapErrorOf (some missingKey) = some mapped ∧
        mapped.is (.jetstream .errKeyNotFound) := by
  have happ : ¬ missingKey.ContainsAppError := by simp [missingKey, Err.ContainsAppError]
  have hs : missingKey.is (.jetstream .errKeyNotFound) := by decide
  exact ⟨happ, hs, mapErrorOf_stable.2.2.2.2 missingKey _ happ hs⟩

end TransportNats
