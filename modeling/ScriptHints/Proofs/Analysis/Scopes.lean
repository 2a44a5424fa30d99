import Mathlib
import ScriptHints.Analysis.Transcript
import ScriptHints.Proofs.Analysis.Walk

/-!
# The scopes a walk enters

A walk enters a scope for every section it opens and exits the scopes of those it closes, but its
state only shows the table that comes of it. This file counts the scopes entered by following that
table from one line to the next, through the steps of the walk itself, and ties two other counts to
it: that of the headers among the lines, and that of the log messages about entries.

* `HintTable.Exits`, `HintTable.Moves` — what may happen to the scopes of a table at one line: one
  more is entered, or some are exited.
* `EntersScopes` — a walk over lines with the number of scopes its table enters on the way. The
  table and the lines determine that number (`EntersScopes.unique`).
* `Reached.entersScopes` — a walk that comes to the end of its script is such a walk.
* `EntersScopes.countP_isHeader` — every header was warned about or had a scope entered for it.
* `Message.tellsEntry` — whether a log message tells of a scope that is entered.
* `EntersScopes.countP_transcriptFrom`, `countP_runMessages` — the log tells of every entry once.
-/

namespace ScriptHints

/-! ### Tables that move -/

namespace HintTable

variable {τ : Type}

/-- `t.Exits t'`: exiting scopes of `t`, one after the other, gives `t'`. None of the exits
fails. -/
inductive Exits : HintTable τ → HintTable τ → Prop
  | refl (t : HintTable τ) : Exits t t
  | step {t outer t' : HintTable τ} (h : t.exit = .ok outer) (rest : Exits outer t') : Exits t t'

/-- `t.Moves k t'`: one line leads from `t` to `t'` and enters `k` scopes. A line that enters a
scope enters one and exits none. -/
inductive Moves (t : HintTable τ) : Nat → HintTable τ → Prop
  | enters : Moves t 1 t.enter
  | exits {t' : HintTable τ} (h : t.Exits t') : Moves t 0 t'

/-- Scopes that are there can be exited. -/
theorem exits_leave {n : Nat} {t : HintTable τ} (h : n < t.depth) : t.Exits (t.leave n) := by
  induction n generalizing t with
  | zero => exact .refl t
  | succ n ih =>
    obtain ⟨current, _ | ⟨scope, enclosing⟩⟩ := t
    · simp [depth] at h
    · have hlt : n < depth ⟨scope, enclosing⟩ := by
        simp only [depth, List.length_cons] at h ⊢
        omega
      exact .step rfl (ih hlt)

/-- A table gets no deeper by exits. -/
theorem Exits.depth_le {t t' : HintTable τ} (h : t.Exits t') : t'.depth ≤ t.depth := by
  induction h with
  | refl t => exact Nat.le_refl _
  | @step t outer t' h rest ih =>
    obtain ⟨current, _ | ⟨scope, enclosing⟩⟩ := t
    · simp [exit] at h
    · obtain rfl := Except.ok.inj h
      exact Nat.le_succ_of_le ih

/-- The scopes that are entered can be read off the tables: they are what the table gets deeper. -/
theorem Moves.eq_depth_sub {k : Nat} {t t' : HintTable τ} (h : t.Moves k t') :
    k = t'.depth - t.depth := by
  rcases h with _ | hexits
  · rw [depth_enter, Nat.add_sub_cancel_left]
  · exact (Nat.sub_eq_zero_of_le hexits.depth_le).symm

end HintTable

/-- A line enters a scope if it opens a section, and exits scopes otherwise. -/
theorem Progress.Aligned.moves_placed {p : Progress} (h : p.Aligned) (line : Line) :
    p.hints.Moves (if (p.outline.place line).opened then 1 else 0) (p.placed line).hints := by
  have hclosed := h.closed_lt_depth line
  have hplaced := placed_place p.outline line
  unfold Progress.placed Placement.hintsOn
  generalize p.outline.place line = placement at hclosed hplaced ⊢
  rcases hplaced with _ | _ | _ | _
  case opens => exact .enters
  all_goals exact .exits (HintTable.exits_leave hclosed)

/-! ### Walks and the scopes they enter -/

/-- `EntersScopes p lines n q`: the walk goes from `p` over the lines and the end of the script to
`q`, and its table enters `n` scopes on the way. Where the scopes follow a line the table moves; no
scope is entered or exited where the line is read, and none is entered at the end. -/
inductive EntersScopes : Progress → List Line → Nat → Progress → Prop
  | finish {p q : Progress} (hfinish : finish.run p = .ok () q)
      (hexits : p.hints.Exits q.hints) : EntersScopes p [] 0 q
  | line {p placed after q : Progress} {line : Line} {lines : List Line} {entries : List Entry}
      {k n : Nat} (hfollow : (follow (p.outline.place line)).run p = .ok () placed)
      (hmoves : p.hints.Moves k placed.hints) (hvisit : (visit line).run p = .ok entries after)
      (hread : after.hints.enclosing = placed.hints.enclosing)
      (hrest : EntersScopes after lines n q) : EntersScopes p (line :: lines) (k + n) q

namespace EntersScopes

variable {p q q' : Progress} {lines : List Line} {n n' : Nat}

/-- Where a walk starts and what it reads determine how many scopes it enters. -/
theorem unique (h : EntersScopes p lines n q) (h' : EntersScopes p lines n' q') : n = n' := by
  induction h generalizing n' q' with
  | finish =>
    cases h'
    rfl
  | line hfollow hmoves hvisit hread hrest ih =>
    -- a step of the walk is a function, and the tables before and behind it tell its count
    rcases h' with _ | ⟨hfollow', hmoves', hvisit', _, hrest'⟩
    obtain ⟨-, rfl⟩ := EStateM.Result.ok.inj (hfollow.symm.trans hfollow')
    obtain ⟨-, rfl⟩ := EStateM.Result.ok.inj (hvisit.symm.trans hvisit')
    rw [hmoves.eq_depth_sub, hmoves'.eq_depth_sub, ih hrest']

end EntersScopes

/-- Where a walk goes on behind a line, the outline accepts the line, and the table enters a scope
exactly if a section is opened. -/
theorem Progress.Aligned.accepts {p placed after : Progress} (h : p.Aligned) {line : Line}
    {entries : List Entry} {k : Nat}
    (hfollow : (follow (p.outline.place line)).run p = .ok () placed)
    (hmoves : p.hints.Moves k placed.hints) (hvisit : (visit line).run p = .ok entries after) :
    ∃ outline, (p.outline.place line).verdict = .ok outline ∧ after = p.after line outline ∧
      k = if (p.outline.place line).opened then 1 else 0 := by
  rw [follow_run h] at hfollow
  rw [visit_run h] at hvisit
  rcases hv : (p.outline.place line).verdict with e | outline
  · rw [hv] at hvisit
    cases hvisit
  · rw [hv] at hfollow hvisit
    obtain ⟨-, rfl⟩ := EStateM.Result.ok.inj hfollow
    obtain ⟨-, rfl⟩ := EStateM.Result.ok.inj hvisit
    refine ⟨outline, rfl, rfl, ?_⟩
    rw [hmoves.eq_depth_sub, (h.moves_placed line).eq_depth_sub]

/-- An accepted line is a step of such a walk. -/
theorem EntersScopes.step {p q : Progress} (h : p.Aligned) {line : Line} {outline : Outline}
    (hv : (p.outline.place line).verdict = .ok outline) {lines : List Line} {n : Nat}
    (hrest : EntersScopes (p.after line outline) lines n q) :
    EntersScopes p (line :: lines) ((if (p.outline.place line).opened then 1 else 0) + n) q := by
  have hfollow := follow_run h line
  have hvisit := visit_run h line
  rw [hv] at hfollow hvisit
  exact .line hfollow (h.moves_placed line) hvisit (enclosing_afterLine _ line) hrest

/-- What was read before a walk belongs to it. -/
theorem Reached.entersScopes_append {done : List Line} {entries : List Entry} {p q : Progress}
    (h : Reached done entries p) {rest : List Line} {n : Nat} (hrest : EntersScopes p rest n q) :
    ∃ m, EntersScopes {} (done ++ rest) m q := by
  induction h generalizing rest n with
  | start => exact ⟨n, hrest⟩
  | @step done entries p line outline h hv ih =>
    rw [List.append_assoc]
    exact ih (.step h.aligned hv hrest)

/-- A walk over a whole script enters some number of scopes. -/
theorem Reached.entersScopes {lines : List Line} {entries : List Entry} {p : Progress}
    (h : Reached lines entries p) :
    ∃ n, EntersScopes {} lines n
      { p with
        hints := p.hints.leave p.outline.sections.length
        warnings := p.warnings ++ warningsFor p.outline.pending } := by
  have hexits := HintTable.exits_leave h.aligned.length_lt_depth
  have hall := h.entersScopes_append (.finish (finish_run h.aligned) hexits)
  rwa [List.append_nil] at hall

/-! ### Headers and scopes -/

/-- There is one warning for a header, if there is a header. -/
theorem length_warningsFor (header : Option Span) :
    (warningsFor header).length = header.toList.length := by
  cases header <;> rfl

/-- An accepted line settles a header that waits: it opens its section or finds it empty. -/
theorem settled_of_ok {o o' : Outline} {line : Line} (h : (o.place line).verdict = .ok o') :
    (warningsFor (o.place line).emptied).length + (if (o.place line).opened then 1 else 0) =
      o.pending.toList.length := by
  have haccepted := accepted_of_ok h
  generalize o.place line = placement at haccepted ⊢
  cases haccepted with
  | opens hmix hwidth hpending =>
    rw [hpending]
    rfl
  | continues => exact length_warningsFor o.pending

/-- A header leaves one header waiting, and any other line none. -/
theorem length_pendingHeader (line : Line) :
    line.pendingHeader.toList.length = if line.isHeader then 1 else 0 := by
  unfold Line.pendingHeader
  split <;> rfl

/-- The warnings after an accepted line: those before it and that for a header found empty. -/
theorem length_warnings_after (p : Progress) (line : Line) (outline : Outline) :
    (p.after line outline).warnings.length =
      p.warnings.length + (warningsFor (p.outline.place line).emptied).length :=
  List.length_append

/-- Every header that waits or is still to come is warned about or gets a scope. -/
theorem EntersScopes.countP_isHeader {p q : Progress} {lines : List Line} {n : Nat}
    (h : EntersScopes p lines n q) (haligned : p.Aligned) :
    p.warnings.length + p.outline.pending.toList.length + lines.countP Line.isHeader =
      q.warnings.length + n := by
  induction h with
  | finish hfinish =>
    rw [finish_run haligned] at hfinish
    obtain ⟨-, rfl⟩ := EStateM.Result.ok.inj hfinish
    rw [List.length_append, length_warningsFor]
    rfl
  | @line p placed after q line lines entries k n hfollow hmoves hvisit hread hrest ih =>
    obtain ⟨outline, hv, rfl, rfl⟩ := haligned.accepts hfollow hmoves hvisit
    have hrest := ih (haligned.after hv)
    -- what waits before the line is settled by it, and the line itself may wait behind it
    have hsettled := settled_of_ok hv
    rw [length_warnings_after, Progress.outline_after, pending_of_ok hv,
      length_pendingHeader] at hrest
    rw [List.countP_cons]
    omega

/-! ### Scopes in the transcript -/

/-- Whether a message tells of a scope that is entered. Every scope entered leaves one such message,
and nothing else does. -/
def Message.tellsEntry (m : Message) : Bool :=
  "Entered type hint scope".toList.isPrefixOf m.text.toList

/-- Messages none of which tells of an entry. -/
def Quiet (ms : List Message) : Prop := ∀ m ∈ ms, m.tellsEntry = false

namespace Quiet

/-- The empty list of messages is quiet. -/
theorem nil : Quiet [] := nofun

/-- Quiet messages stay quiet together. -/
theorem append {ms others : List Message} (h : Quiet ms) (h' : Quiet others) :
    Quiet (ms ++ others) := by
  intro m hm
  rcases List.mem_append.1 hm with hm | hm
  · exact h m hm
  · exact h' m hm

/-- Where every part is quiet, the whole is. -/
theorem flatMap {α : Type} {f : α → List Message} (h : ∀ a, Quiet (f a)) (as : List α) :
    Quiet (as.flatMap f) := by
  intro m hm
  obtain ⟨a, -, hm⟩ := List.mem_flatMap.1 hm
  exact h a m hm

/-- No entry is told of in quiet messages. -/
theorem countP_eq_zero {ms : List Message} (h : Quiet ms) :
    ms.countP Message.tellsEntry = 0 := by
  rw [List.countP_eq_zero]
  intro m hm
  rw [h m hm]
  exact Bool.false_ne_true

/-- Quiet messages around others do not change the count. -/
theorem countP_between {front back : List Message} (hfront : Quiet front) (hback : Quiet back)
    (ms : List Message) :
    (front ++ ms ++ back).countP Message.tellsEntry = ms.countP Message.tellsEntry := by
  rw [List.countP_append, List.countP_append, hfront.countP_eq_zero, hback.countP_eq_zero,
    Nat.zero_add, Nat.add_zero]

/-- A single message that tells of no entry. -/
theorem singleton {m : Message} (h : m.tellsEntry = false) : Quiet [m] := by
  intro m' hm
  rw [List.mem_singleton.1 hm]
  exact h

end Quiet

section

variable (hints : HintTable ValueType)

/-- Looking up a hint enters no scope. -/
theorem quiet_lookup (name : String) : Quiet (hints.messages (.lookup name)) := by
  unfold HintTable.messages
  dsimp only
  split
  · apply Quiet.singleton
    simp only [HintTable.lookupMessage, Message.tellsEntry, String.toList_append]
    rfl
  · exact .nil

/-- Recording a hint enters no scope. -/
theorem quiet_record (name : String) (type : ValueType) :
    Quiet (hints.messages (.record name type)) := by
  unfold HintTable.messages
  dsimp only
  split
  · exact .nil
  · split
    all_goals
      apply Quiet.singleton
      simp only [Message.tellsEntry, String.toList_append]
      rfl

/-- Exiting a scope enters none. -/
theorem quiet_exit : Quiet (hints.messages .exit) := by
  unfold HintTable.messages
  dsimp only
  split
  · apply Quiet.singleton
    simp only [Message.tellsEntry, String.toList_append]
    rfl
  · exact .nil

/-- Entering a scope leaves one message that tells of it. -/
theorem countP_messages_enter : (hints.messages .enter).countP Message.tellsEntry = 1 := by
  have htells : ∀ m ∈ hints.messages .enter, m.tellsEntry = true := by
    intro m hm
    rw [List.mem_singleton.1 hm]
    simp only [Message.tellsEntry, String.toList_append]
    rfl
  rw [List.countP_eq_length.2 htells]
  rfl

/-- Looking up the uses on a line enters no scope. -/
theorem quiet_resolveMessages (uses : List Use) : Quiet (resolveMessages hints uses) := by
  unfold resolveMessages
  apply Quiet.flatMap
  intro use
  exact quiet_lookup hints use.name

/-- Asking for the type of an operand enters no scope. -/
theorem quiet_termMessages (t : Token) : Quiet (termMessages hints t) := by
  unfold termMessages
  split
  · split
    · exact quiet_lookup hints _
    · exact .nil
  · exact .nil

/-- Assigning a value enters no scope. -/
theorem quiet_assignMessages (line : Nat) (target : Token) (type : ValueType) :
    Quiet (assignMessages hints line target type) := by
  unfold assignMessages
  dsimp only
  split
  · rw [← List.singleton_append]
    refine .append (.singleton ?_) ((quiet_record hints _ type).append (quiet_lookup _ _))
    simp only [Message.tellsEntry, String.toList_append]
    rfl
  · apply Quiet.singleton
    simp only [Message.tellsEntry, String.toList_append]
    rfl

/-- Reading a line enters no scope. -/
theorem quiet_lineMessages (line : Line) : Quiet (lineMessages hints line) := by
  unfold lineMessages
  split
  · exact quiet_resolveMessages hints _
  · refine .append (.append (.append ?_ ?_) ?_) ?_
    · exact quiet_resolveMessages hints _
    · exact quiet_resolveMessages hints _
    · exact .flatMap (quiet_termMessages hints) _
    · split
      · exact quiet_assignMessages hints _ _ _
      · exact .nil

/-- Exiting any number of scopes enters none. -/
theorem quiet_exitMessages (n : Nat) : Quiet (exitMessages n hints) := by
  induction n generalizing hints with
  | zero => exact .nil
  | succ n ih => exact (quiet_exit hints).append (ih _)

end

/-- The messages for a line tell of an entry exactly if the line opens a section. -/
theorem countP_visitMessages (p : Progress) (line : Line) :
    (visitMessages p line).countP Message.tellsEntry =
      if (p.outline.place line).opened then 1 else 0 := by
  have hquiet : ∀ {ms}, Quiet ms →
      ((if (p.outline.place line).opened then p.hints.messages .enter else []) ++
        exitMessages (p.outline.place line).closed p.hints ++ ms).countP Message.tellsEntry =
        if (p.outline.place line).opened then 1 else 0 := by
    intro ms hms
    rw [List.countP_append, List.countP_append, hms.countP_eq_zero,
      (quiet_exitMessages p.hints _).countP_eq_zero]
    split
    · exact countP_messages_enter p.hints
    · rfl
  apply hquiet
  split
  · exact quiet_lineMessages _ line
  · exact .nil

/-- The transcript of a walk tells of the scopes its table enters, and of no others. -/
theorem EntersScopes.countP_transcriptFrom {p q : Progress} {lines : List Line} {n : Nat}
    (h : EntersScopes p lines n q) (haligned : p.Aligned) :
    (transcriptFrom p lines).countP Message.tellsEntry = n := by
  induction h with
  | finish => exact (quiet_exitMessages _ _).countP_eq_zero
  | @line p placed after q line lines entries k n hfollow hmoves hvisit hread hrest ih =>
    rw [transcriptFrom, hvisit]
    obtain ⟨outline, hv, rfl, rfl⟩ := haligned.accepts hfollow hmoves hvisit
    rw [List.countP_append, countP_visitMessages, ih (haligned.after hv)]

/-- A run tells of the scopes that its walk enters, and of no others. -/
theorem countP_runMessages (name : String) {source : String} {tokens : List Token}
    (h : tokenize source = .ok tokens) :
    (runMessages name source).countP Message.tellsEntry =
      (transcriptFrom {} (Token.toLines tokens)).countP Message.tellsEntry := by
  unfold runMessages
  rw [h]
  apply Quiet.countP_between
  · refine .append (.singleton ?_) (.singleton rfl)
    simp only [Message.tellsEntry, String.toList_append]
    rfl
  · split
    · apply Quiet.singleton
      simp only [Message.tellsEntry, String.toList_append]
      rfl
    · exact .nil

end ScriptHints
