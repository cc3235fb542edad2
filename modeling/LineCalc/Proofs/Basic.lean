namespace LineCalc

section Except

variable {ε ε' α β : Type} {x : Except ε α} {f : α → β} {a : α} {b : β} {e : ε}

theorem ok_of_map_eq_ok (came : x.map f = .ok b) : ∃ a, x = .ok a ∧ f a = b := by
  cases x with
  | error e => cases came
  | ok a => exact ⟨a, rfl, Except.ok.inj came⟩

theorem error_of_map_eq_error (failed : x.map f = .error e) : x = .error e := by
  cases x with
  | error other => exact congrArg Except.error (Except.error.inj failed)
  | ok a => cases failed

theorem exists_ok_of_bind {next : α → Except ε β} (came : x >>= next = .ok b) :
    ∃ a, x = .ok a ∧ next a = .ok b := by
  cases x with
  | error e => cases came
  | ok a => exact ⟨a, rfl, came⟩

theorem mapError_eq_ok_iff {f : ε → ε'} : x.mapError f = .ok a ↔ x = .ok a := by
  cases x with
  | error e => exact ⟨nofun, nofun⟩
  | ok b => exact ⟨fun same => congrArg _ (Except.ok.inj same), fun same => congrArg _ (Except.ok.inj same)⟩

end Except

section Lookup

variable {α β : Type} [BEq α] [LawfulBEq α] {pairs : List (α × β)} {key : α} {value : β}

theorem mem_of_lookup (found : pairs.lookup key = some value) : (key, value) ∈ pairs := by
  obtain ⟨front, behind, split, _⟩ := List.lookup_eq_some_iff.mp found
  rw [split]
  exact List.mem_append_right _ List.mem_cons_self

theorem lookup_of_mem (distinct : (pairs.map Prod.fst).Nodup) (member : (key, value) ∈ pairs) :
    pairs.lookup key = some value := by
  induction pairs with
  | nil => simp at member
  | cons first pairs ih =>
      simp only [List.map_cons, List.nodup_cons, List.mem_map, not_exists, not_and] at distinct
      rcases List.mem_cons.mp member with same | later
      · rw [← same, List.lookup_cons_self]
      · have other : key ≠ first.1 := distinct.1 _ later
        rw [List.lookup_cons, beq_false_of_ne other]
        exact ih distinct.2 later

end Lookup

theorem takeWhile_isNone_append {α β : Type} (f : α → Option β) (first second : List α) :
    (first ++ second).takeWhile (fun x => (f x).isNone) =
      first.takeWhile (fun x => (f x).isNone) ++
        if first.findSome? f = none then second.takeWhile (fun x => (f x).isNone) else [] := by
  induction first with
  | nil => simp
  | cons x rest ih =>
      cases failed : f x with
      | none => simp [failed, ih]
      | some b => simp [failed]

end LineCalc
