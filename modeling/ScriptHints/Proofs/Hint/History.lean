import Mathlib.Data.List.DropRight
import Mathlib.Data.List.Induction
import ScriptHints.Hint.Call
import ScriptHints.Proofs.Analysis.Walk

/-!
# The hint table as the history of its calls

A hint table keeps one list of hints per scope and searches them from the innermost scope outwards.
This file says what the table comes to in terms of time: which calls were made, which of them
succeeded, and how deep the scopes were nested in between.

* `Performed` — what a single call can do, guards included; `performed` says that there is nothing
  else.
* `tableAfter`, `depthAt` — the table after a history of calls, and how deep it was at any time.
* `LiveRecord` — a hint that was recorded and not lost since: no reset, and never fewer scopes than
  when it was recorded.
* `isLast_find?` — the invariant of a history: once the scopes deeper than a bound are left, what is
  found is the last live record at most as deep as the bound.
* `Balanced` — calls that enter and exit scopes in pairs.
* `table_follows_history` — all of it, for any history of any table.
-/

namespace ScriptHints

/-- `IsLast holds last`: of all places at which something holds, `last` is what holds at the last
one. It is `none` if there is no such place. -/
def IsLast {α : Type} (holds : Nat → α → Prop) : Option α → Prop
  | some a => ∃ i, holds i a ∧ ∀ j b, holds j b → j ≤ i
  | none => ∀ i a, ¬holds i a

/-- What holds at the same places has the same last place. -/
theorem IsLast.congr {α : Type} {holds holds' : Nat → α → Prop} {last : Option α}
    (h : IsLast holds last) (hiff : ∀ i a, holds i a ↔ holds' i a) : IsLast holds' last := by
  have heq : holds = holds' := by
    funext i a
    exact propext (hiff i a)
  rwa [← heq]

namespace HintTable

variable {τ : Type}

/-- There is always the root. -/
theorem depth_pos (t : HintTable τ) : 1 ≤ t.depth := Nat.succ_le_succ (Nat.zero_le _)

/-- Exiting a scope gives the table that is left without it. -/
theorem leave_of_exit {t outer : HintTable τ} (h : t.exit = .ok outer) (n : Nat) :
    t.depth = outer.depth + 1 ∧ t.leave (n + 1) = outer.leave n := by
  obtain ⟨current, _ | ⟨scope, enclosing⟩⟩ := t
  · cases h
  · obtain rfl := Except.ok.inj h
    exact ⟨rfl, rfl⟩

variable [Hintable τ]

/-! ## One call -/

/-- `Performed t call answer t'`: the ways in which a call is answered and changes the table. -/
inductive Performed (t : HintTable τ) : Call τ → Answer τ → HintTable τ → Prop
  | kept {name : String} {type : τ} (hname : name ≠ "")
      (hknown : Hintable.isUnknown type = false) :
      Performed t (.record name type) .done (t.insert name type)
  | ignored {name : String} {type : τ} (hname : name ≠ "")
      (hknown : Hintable.isUnknown type = true) :
      Performed t (.record name type) .done t
  | unnamed (type : τ) : Performed t (.record "" type) (.faulty .unnamedVariable) t
  | looked (name : String) (answer : Answer τ) : Performed t (.lookup name) answer t
  | entered : Performed t .enter .done t.enter
  | exited {outer : HintTable τ} (hexit : t.exit = .ok outer) : Performed t .exit .done outer
  | stuck (hroot : t.depth = 1) : Performed t .exit (.misused .exitOfRoot) t
  | cleared : Performed t .reset .done {}

/-- A proper name with a known type is recorded. -/
theorem perform_record {t : HintTable τ} {name : String} {type : τ} (hname : name ≠ "")
    (hknown : Hintable.isUnknown type = false) :
    t.perform (.record name type) = (.done, t.insert name type) := by
  simp [perform, record, hname, hknown]

/-- Looking up changes nothing, also where it fails. -/
theorem perform_lookup (t : HintTable τ) (name : String) : (t.perform (.lookup name)).2 = t := by
  unfold perform
  dsimp only
  split <;> rfl

/-- Exiting a scope brings the enclosing one to the front. -/
theorem perform_exit {t outer : HintTable τ} (h : t.enclosing = outer.current :: outer.enclosing) :
    t.perform .exit = (.done, outer) := by
  simp only [perform, HintTable.exit, h]

/-- A call does nothing else. -/
theorem performed (t : HintTable τ) (call : Call τ) :
    Performed t call (t.perform call).1 (t.perform call).2 := by
  rcases call with ⟨name, type⟩ | name | _ | _ | _
  · by_cases hname : name = ""
    · subst hname
      exact .unnamed type
    rcases hknown : Hintable.isUnknown type with _ | _
    · rw [perform_record hname hknown]
      exact .kept hname hknown
    · have hperform : t.perform (.record name type) = (.done, t) := by
        simp [perform, record, hname, hknown]
      rw [hperform]
      exact .ignored hname hknown
  · rw [perform_lookup]
    exact .looked name _
  · exact .entered
  · unfold perform
    dsimp only
    split
    · rename_i outer hexit
      exact .exited hexit
    · rename_i misuse hexit
      obtain ⟨hroot, rfl⟩ := (exit_eq_error_iff t misuse).1 hexit
      exact .stuck hroot
  · exact .cleared

/-- Recording a hint neither enters nor exits a scope. -/
theorem enclosing_record (t : HintTable τ) (name : String) (type : τ) :
    (t.perform (.record name type)).2.enclosing = t.enclosing := by
  have hstep := performed t (.record name type)
  generalize (t.perform (.record name type)).1 = answer, (t.perform (.record name type)).2 = after
    at hstep ⊢
  rcases hstep with _ | _ | _ | _
  all_goals rfl

/-! ## Histories -/

/-- The table after a history of calls. -/
def tableAfter (calls : List (Call τ)) : HintTable τ := ({} : HintTable τ).performAll calls

/-- How deep the table was before the call with the given place or, at the end, after all calls. -/
def depthAt (calls : List (Call τ)) (i : Nat) : Nat := (tableAfter (calls.take i)).depth

/-- Calls with the answers they get, one after the other. -/
def answered (t : HintTable τ) : List (Call τ) → List (Call τ × Answer τ)
  | [] => []
  | call :: calls => (call, (t.perform call).1) :: answered (t.perform call).2 calls

/-- A history may be performed in two goes. -/
theorem performAll_append (t : HintTable τ) (calls others : List (Call τ)) :
    t.performAll (calls ++ others) = (t.performAll calls).performAll others := by
  unfold performAll
  exact List.foldl_append

/-- The last call of a history is performed on the table of the calls before. -/
theorem tableAfter_concat (calls : List (Call τ)) (call : Call τ) :
    tableAfter (calls ++ [call]) = ((tableAfter calls).perform call).2 :=
  performAll_append {} calls [call]

/-- The last call of a history is answered by the table of the calls before. -/
theorem answered_concat (t : HintTable τ) (calls : List (Call τ)) (call : Call τ) :
    answered t (calls ++ [call]) =
      answered t calls ++ [(call, ((t.performAll calls).perform call).1)] := by
  induction calls generalizing t with
  | nil => rfl
  | cons first calls ih =>
    rw [List.cons_append, answered, ih, answered]
    rfl

/-- At the end of a history the depth is that of its table. -/
theorem depthAt_length (calls : List (Call τ)) :
    depthAt calls calls.length = (tableAfter calls).depth := by
  rw [depthAt, List.take_length]

/-- Later calls do not change how deep the table was. -/
theorem depthAt_concat {calls : List (Call τ)} {i : Nat} (h : i ≤ calls.length) (call : Call τ) :
    depthAt (calls ++ [call]) i = depthAt calls i := by
  rw [depthAt, List.take_append_of_le_length h, depthAt]

/-- So it is once another call was made. -/
theorem depthAt_concat_length (calls : List (Call τ)) (call : Call τ) :
    depthAt (calls ++ [call]) (calls.length + 1) = (tableAfter (calls ++ [call])).depth := by
  rw [← depthAt_length, List.length_append, List.length_singleton]

/-! ## Depth -/

/-- Whether a call entered a scope. -/
def didEnter : Call τ × Answer τ → Bool
  | (.enter, .done) => true
  | _ => false

/-- Whether a call exited a scope. A call that fails does not. -/
def didExit : Call τ × Answer τ → Bool
  | (.exit, .done) => true
  | _ => false

/-- Whether a call resets the table. -/
def isReset : Call τ → Bool
  | .reset => true
  | _ => false

/-- The calls since the last reset, with their answers. -/
def sinceReset (calls : List (Call τ)) : List (Call τ × Answer τ) :=
  (answered {} calls).rtakeWhile fun entry => !isReset entry.1

/-- A call that is no reset joins those since the last reset. -/
theorem sinceReset_concat {call : Call τ} (h : isReset call = false) (calls : List (Call τ)) :
    sinceReset (calls ++ [call]) =
      sinceReset calls ++ [(call, ((tableAfter calls).perform call).1)] := by
  rw [sinceReset, answered_concat, List.rtakeWhile_concat_pos _ _ _ (by simp [h])]
  rfl

/-- A reset starts the count anew. -/
theorem sinceReset_concat_reset (calls : List (Call τ)) : sinceReset (calls ++ [.reset]) = [] := by
  rw [sinceReset, answered_concat, List.rtakeWhile_concat_neg _ _ _ (by simp [isReset])]

/-- The depth counts the scopes that were entered and not exited since the last reset. -/
theorem depth_tableAfter (calls : List (Call τ)) :
    (tableAfter calls).depth + (sinceReset calls).countP didExit =
      1 + (sinceReset calls).countP didEnter := by
  induction calls using List.reverseRecOn with
  | nil => rfl
  | append_singleton calls call ih =>
    have hstep := performed (tableAfter calls) call
    rw [tableAfter_concat]
    rcases hreset : isReset call with _ | _
    · rw [sinceReset_concat hreset, List.countP_append, List.countP_append]
      generalize ((tableAfter calls).perform call).1 = answer,
        ((tableAfter calls).perform call).2 = after at hstep ⊢
      rcases hstep with _ | _ | _ | _ | _ | hexit | _ | _
      case entered =>
        simp [didEnter, didExit, List.countP_singleton]
        omega
      case exited =>
        have hdepth := (leave_of_exit hexit 0).1
        simp [didEnter, didExit, List.countP_singleton]
        omega
      case cleared => cases hreset
      all_goals exact ih
    · obtain rfl : call = .reset := by
        rcases call with _ | _ | _ | _ | _
        all_goals first | rfl | cases hreset
      rw [sinceReset_concat_reset]
      rfl

/-! ## Live records -/

/-- The call at place `i` recorded a hint for a name that is still there: no reset has happened
since, and the table has never been less deep than it was then. -/
structure LiveRecord (calls : List (Call τ)) (name : String) (i : Nat) (type : τ) : Prop where
  recorded : calls[i]? = some (.record name type)
  /-- A type that says nothing is not recorded. -/
  known : Hintable.isUnknown type = false
  unreset : ∀ j, i < j → calls[j]? ≠ some .reset
  covered : ∀ j ≤ calls.length, i < j → depthAt calls i ≤ depthAt calls j

section

variable {calls : List (Call τ)} {call : Call τ} {name : String} {i : Nat} {type : τ}

/-- A live record is one of the calls. -/
theorem LiveRecord.lt_length (h : LiveRecord calls name i type) : i < calls.length :=
  (List.getElem?_eq_some_iff.1 h.recorded).1

/-- A live record is at most as deep as the table is now. -/
theorem LiveRecord.depth_le (h : LiveRecord calls name i type) :
    depthAt calls i ≤ (tableAfter calls).depth := by
  rw [← depthAt_length]
  exact h.covered calls.length (Nat.le_refl _) h.lt_length

/-- After a call that is no reset, a live record is one of before that is not deeper than the table
is now, or the call itself. -/
theorem liveRecord_concat (hreset : call ≠ .reset) :
    LiveRecord (calls ++ [call]) name i type ↔
      LiveRecord calls name i type ∧ depthAt calls i ≤ (tableAfter (calls ++ [call])).depth ∨
        i = calls.length ∧ call = .record name type ∧ Hintable.isUnknown type = false := by
  have hlength : (calls ++ [call]).length = calls.length + 1 := by simp
  constructor
  · intro h
    have hle : i ≤ calls.length := by
      have := h.lt_length
      omega
    rcases Nat.lt_or_eq_of_le hle with hlt | rfl
    · refine .inl ⟨⟨?_, h.known, ?_, ?_⟩, ?_⟩
      · rw [← List.getElem?_append_left hlt]
        exact h.recorded
      · intro j hij hj
        apply h.unreset j hij
        rw [List.getElem?_append_left (List.getElem?_eq_some_iff.1 hj).1]
        exact hj
      · intro j hj hij
        have := h.covered j (by omega) hij
        rwa [depthAt_concat hle, depthAt_concat hj] at this
      · have := h.covered (calls.length + 1) (Nat.le_of_eq hlength.symm) (by omega)
        rwa [depthAt_concat hle, depthAt_concat_length] at this
    · exact .inr ⟨rfl, by simpa using h.recorded, h.known⟩
  · rintro (⟨h, hdepth⟩ | ⟨rfl, rfl, hknown⟩)
    · have hlt := h.lt_length
      refine ⟨?_, h.known, ?_, ?_⟩
      · rw [List.getElem?_append_left hlt]
        exact h.recorded
      · intro j hij hj
        rcases Nat.lt_or_ge j calls.length with hj' | hj'
        · rw [List.getElem?_append_left hj'] at hj
          exact h.unreset j hij hj
        · rw [List.getElem?_append_right hj', List.getElem?_singleton] at hj
          split at hj
          · exact hreset (Option.some.inj hj)
          · cases hj
      · intro j hj hij
        rw [depthAt_concat (Nat.le_of_lt hlt)]
        rcases Nat.lt_or_eq_of_le hj with hj | rfl
        · rw [depthAt_concat (by omega)]
          exact h.covered j (by omega) hij
        · rw [hlength, depthAt_concat_length]
          exact hdepth
    · refine ⟨by simp, hknown, ?_, ?_⟩
      · intro j hij hj
        have := (List.getElem?_eq_some_iff.1 hj).1
        omega
      · intro j hj hij
        obtain rfl : j = calls.length + 1 := by omega
        rw [depthAt_concat (Nat.le_refl _), depthAt_concat_length, depthAt_length,
          tableAfter_concat, HintTable.depth, HintTable.depth, enclosing_record]

/-- After a reset there are no live records. -/
theorem not_liveRecord_concat_reset : ¬LiveRecord (calls ++ [.reset]) name i type := by
  intro h
  have hle := h.lt_length
  rw [List.length_append, List.length_singleton] at hle
  rcases Nat.lt_or_eq_of_le (Nat.le_of_lt_succ hle) with hlt | rfl
  · exact h.unreset calls.length hlt (by simp)
  · have hrecorded := h.recorded
    simp at hrecorded

/-- A live record that is at most as deep as a bound. -/
def LiveWithin (calls : List (Call τ)) (name : String) (bound i : Nat) (type : τ) : Prop :=
  LiveRecord calls name i type ∧ depthAt calls i ≤ bound

/-- The live records within a bound, after a call that is no reset: those of before and the call
itself, if it recorded a hint within the bound. -/
theorem liveWithin_concat (hreset : call ≠ .reset) {bound : Nat}
    (hbound : bound ≤ (tableAfter (calls ++ [call])).depth) :
    LiveWithin (calls ++ [call]) name bound i type ↔
      LiveWithin calls name bound i type ∨
        i = calls.length ∧ call = .record name type ∧ Hintable.isUnknown type = false ∧
          (tableAfter calls).depth ≤ bound := by
  unfold LiveWithin
  rw [liveRecord_concat hreset]
  constructor
  · rintro ⟨⟨h, -⟩ | ⟨rfl, hcall, hknown⟩, hle⟩
    · rw [depthAt_concat (Nat.le_of_lt h.lt_length)] at hle
      exact .inl ⟨h, hle⟩
    · rw [depthAt_concat (Nat.le_refl _), depthAt_length] at hle
      exact .inr ⟨rfl, hcall, hknown, hle⟩
  · rintro (⟨h, hle⟩ | ⟨rfl, hcall, hknown, hle⟩)
    · refine ⟨.inl ⟨h, Nat.le_trans hle hbound⟩, ?_⟩
      rwa [depthAt_concat (Nat.le_of_lt h.lt_length)]
    · refine ⟨.inr ⟨rfl, hcall, hknown⟩, ?_⟩
      rwa [depthAt_concat (Nat.le_refl _), depthAt_length]

end

/-! ## Lookups -/

/-- A call changes nothing for those who leave the scopes deeper than a bound, unless it records a
hint for the name within that bound. -/
theorem find?_leave_of_performed {t t' : HintTable τ} {call : Call τ} {answer : Answer τ}
    (h : Performed t call answer t') (hreset : call ≠ .reset) {name : String} {bound : Nat}
    (hpos : 1 ≤ bound) (hbound : bound ≤ t'.depth)
    (hother : ∀ type, call = .record name type → Hintable.isUnknown type = false →
      bound < t.depth) :
    (t'.leave (t'.depth - bound)).find? name = (t.leave (t.depth - bound)).find? name := by
  rcases h with ⟨hname, hknown⟩ | _ | _ | _ | _ | hexit | _ | _
  case kept other type =>
    rw [depth_insert] at hbound ⊢
    rcases Nat.lt_or_eq_of_le hbound with hlt | rfl
    · obtain ⟨n, hn⟩ := Nat.exists_eq_add_of_lt hlt
      have hleave : t.depth - bound = n + 1 := by omega
      rw [hleave, leave_insert (by omega)]
    · have hne : name ≠ other := by
        rintro rfl
        exact Nat.lt_irrefl _ (hother type rfl hknown)
      rw [Nat.sub_self, leave_zero, leave_zero, find?_insert, if_neg hne]
  case entered =>
    rw [depth_enter] at hbound ⊢
    rcases Nat.lt_or_eq_of_le hbound with hlt | rfl
    · rw [Nat.succ_sub (Nat.le_of_lt_succ hlt), Nat.succ_eq_add_one, leave_enter]
    · rw [Nat.sub_self, leave_zero, find?_enter, Nat.sub_eq_zero_of_le (Nat.le_succ _), leave_zero]
  case exited =>
    obtain ⟨hdepth, hleave⟩ := leave_of_exit hexit (t'.depth - bound)
    rw [hdepth, Nat.succ_sub hbound, Nat.succ_eq_add_one, hleave]
  case cleared => exact absurd rfl hreset
  all_goals rfl

/-- Once the scopes deeper than a bound are left, what is found for a name is the last live record
that is at most as deep as the bound. -/
theorem isLast_find? {name : String} (hname : name ≠ "") (calls : List (Call τ)) {bound : Nat}
    (hpos : 1 ≤ bound) (hbound : bound ≤ (tableAfter calls).depth) :
    IsLast (LiveWithin calls name bound)
      (((tableAfter calls).leave ((tableAfter calls).depth - bound)).find? name) := by
  induction calls using List.reverseRecOn generalizing bound with
  | nil =>
    obtain rfl : bound = 1 := Nat.le_antisymm hbound hpos
    rintro i type ⟨h, -⟩
    exact absurd h.lt_length (Nat.not_lt_zero i)
  | append_singleton calls call ih =>
    have hstep := performed (tableAfter calls) call
    rw [← tableAfter_concat] at hstep
    by_cases hreset : call = .reset
    · subst hreset
      rw [tableAfter_concat] at hbound ⊢
      obtain rfl : bound = 1 := Nat.le_antisymm hbound hpos
      rintro i type ⟨h, -⟩
      exact not_liveRecord_concat_reset h
    by_cases hnew : ∃ type, call = .record name type ∧ Hintable.isUnknown type = false ∧
        (tableAfter calls).depth ≤ bound
    · -- the call is the last live record
      obtain ⟨type, rfl, hknown, hle⟩ := hnew
      have hinsert : tableAfter (calls ++ [.record name type]) =
          (tableAfter calls).insert name type := by
        rw [tableAfter_concat, perform_record hname hknown]
      have hdepth : bound = (tableAfter calls).depth := by
        rw [hinsert, depth_insert] at hbound
        exact Nat.le_antisymm hbound hle
      rw [hinsert, depth_insert, hdepth, Nat.sub_self, leave_zero, find?_insert, if_pos rfl,
        ← hdepth]
      refine ⟨calls.length, (liveWithin_concat hreset hbound).2 (.inr ⟨rfl, rfl, hknown, hle⟩), ?_⟩
      rintro j type' ⟨h, -⟩
      have hlt := h.lt_length
      rw [List.length_append, List.length_singleton] at hlt
      exact Nat.le_of_lt_succ hlt
    · have hother : ∀ type, call = .record name type → Hintable.isUnknown type = false →
          bound < (tableAfter calls).depth := by
        intro type hcall hknown
        by_contra hle
        exact hnew ⟨type, hcall, hknown, Nat.le_of_not_lt hle⟩
      have hold : IsLast (LiveWithin calls name bound)
          (((tableAfter calls).leave ((tableAfter calls).depth - bound)).find? name) := by
        rcases Nat.le_total bound (tableAfter calls).depth with hle | hle
        · exact ih hpos hle
        · -- the call has entered a scope, and no live record is that deep yet
          rw [Nat.sub_eq_zero_of_le hle, ← Nat.sub_self (tableAfter calls).depth]
          refine (ih (depth_pos _) (Nat.le_refl _)).congr ?_
          intro i type
          constructor
          · rintro ⟨h, -⟩
            exact ⟨h, Nat.le_trans h.depth_le hle⟩
          · rintro ⟨h, -⟩
            exact ⟨h, h.depth_le⟩
      rw [find?_leave_of_performed hstep hreset hpos hbound hother]
      refine hold.congr ?_
      intro i type
      rw [liveWithin_concat hreset hbound]
      refine (or_iff_left ?_).symm
      rintro ⟨-, hcall, hknown, hle⟩
      exact hnew ⟨type, hcall, hknown, hle⟩

/-! ## Balanced calls -/

/-- Calls that enter and exit scopes in pairs, and never reset the table. -/
inductive Balanced : List (Call τ) → Prop
  | nil : Balanced []
  | record (name : String) (type : τ) {calls : List (Call τ)} (h : Balanced calls) :
      Balanced (.record name type :: calls)
  | lookup (name : String) {calls : List (Call τ)} (h : Balanced calls) :
      Balanced (.lookup name :: calls)
  | scope {body calls : List (Call τ)} (hbody : Balanced body) (h : Balanced calls) :
      Balanced (.enter :: (body ++ .exit :: calls))

/-- Balanced calls do not touch the scopes around the current one. -/
theorem Balanced.enclosing_performAll {calls : List (Call τ)} (h : Balanced calls)
    (t : HintTable τ) : (t.performAll calls).enclosing = t.enclosing := by
  induction h generalizing t with
  | nil => rfl
  | @record name type calls h ih => exact (ih _).trans (enclosing_record t name type)
  | @lookup name calls h ih =>
    exact (ih _).trans (congrArg HintTable.enclosing (perform_lookup t name))
  | @scope body calls hbody h ihbody ih =>
    show (t.enter.performAll (body ++ .exit :: calls)).enclosing = _
    rw [performAll_append]
    show (((t.enter.performAll body).perform .exit).2.performAll calls).enclosing = _
    rw [ih, perform_exit (ihbody t.enter)]

/-- What is done in a scope is undone by exiting it. -/
theorem Balanced.tableAfter_scope {body : List (Call τ)} (h : Balanced body)
    (calls : List (Call τ)) :
    tableAfter (calls ++ .enter :: (body ++ [.exit])) = tableAfter calls := by
  rw [tableAfter, performAll_append, ← tableAfter]
  show (tableAfter calls).enter.performAll (body ++ [.exit]) = _
  rw [performAll_append]
  show (((tableAfter calls).enter.performAll body).perform .exit).2 = _
  rw [perform_exit (h.enclosing_performAll _)]

/-! ## The law -/

/-- What the table after a history of calls has to do with the history. -/
structure FollowsHistory (calls : List (Call τ)) : Prop where
  /-- The depth is one, and one more for every scope entered and not exited since the last reset. -/
  depth : (tableAfter calls).depth + (sinceReset calls).countP didExit =
    1 + (sinceReset calls).countP didEnter
  /-- Exiting fails in the root, and only there. -/
  exit : ((tableAfter calls).perform .exit).1 =
    if (tableAfter calls).depth = 1 then .misused .exitOfRoot else .done
  /-- An exit that fails changes nothing. -/
  root : (tableAfter calls).depth = 1 → ((tableAfter calls).perform .exit).2 = tableAfter calls
  /-- The hint of a local variable is its last live record. -/
  hint : ∀ name, isLocal name = true →
    ∃ type?, (tableAfter calls).lookup name = .ok type? ∧ IsLast (LiveRecord calls name) type?
  /-- A hint always says something. -/
  known : ∀ name type, (tableAfter calls).lookup name = .ok (some type) →
    Hintable.isUnknown type = false
  /-- What is done in a scope is undone by exiting it: the depth, the hints and all else. -/
  restored : ∀ body, Balanced body →
    tableAfter (calls ++ .enter :: (body ++ [.exit])) = tableAfter calls

/-- Looking up a local variable gives its last live record. -/
theorem lookup_tableAfter {name : String} (h : isLocal name = true) (calls : List (Call τ)) :
    ∃ type?, (tableAfter calls).lookup name = .ok type? ∧ IsLast (LiveRecord calls name) type? := by
  have hname : name ≠ "" := ne_empty_of_isLocal h
  refine ⟨(tableAfter calls).find? name, ?_, ?_⟩
  · rw [lookup, if_pos h]
  · have hlast := isLast_find? hname calls (depth_pos _) (Nat.le_refl _)
    rw [Nat.sub_self, leave_zero] at hlast
    refine hlast.congr ?_
    intro i type
    exact and_iff_left_of_imp LiveRecord.depth_le

/-- Every table follows the history of its calls. -/
theorem table_follows_history (calls : List (Call τ)) : FollowsHistory calls where
  depth := depth_tableAfter calls
  exit := by
    have hstep := performed (tableAfter calls) .exit
    generalize ((tableAfter calls).perform .exit).1 = answer,
      ((tableAfter calls).perform .exit).2 = after at hstep ⊢
    rcases hstep with _ | _ | _ | _ | _ | hexit | hroot | _
    · have hdepth := (leave_of_exit hexit 0).1
      have hpos := depth_pos after
      rw [if_neg (by omega)]
    · rw [if_pos hroot]
  root hroot := by
    have herror := (exit_eq_error_iff (tableAfter calls) .exitOfRoot).2 ⟨hroot, rfl⟩
    simp only [perform, herror]
  hint name h := lookup_tableAfter h calls
  known name type h := by
    have hlocal : isLocal name = true := by
      by_contra hglobal
      rw [lookup, if_neg hglobal] at h
      cases h
    obtain ⟨type?, hlookup, hlast⟩ := lookup_tableAfter hlocal calls
    obtain rfl := Except.ok.inj (hlookup.symm.trans h)
    obtain ⟨i, hlive, -⟩ := hlast
    exact hlive.known
  restored _ h := h.tableAfter_scope calls

end HintTable

end ScriptHints
