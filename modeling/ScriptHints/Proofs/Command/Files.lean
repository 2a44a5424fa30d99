import Mathlib
import ScriptHints.Command.Files

/-!
# What a file that is written to changes

A file is put at a path of a tree. Everything at other paths stays, and names that do not come by
the path lead where they led before. A name comes by a path if it is the name of what is there, or
if one of its steps goes there and on; the latter makes no difference where a file was at the path
already, since nothing can be found below a file, whatever it holds.

* `FileTree.node?_put_of_ne`, `FileTree.put_put` — a put changes one path, and the last put counts.
* `FileTree.passedFrom`, `FileTree.passed` — the paths that following a name looks at on the way.
* `FileTree.Avoids` — a name does not come by a path.
* `FileTree.Avoids.read_put` — such a name is read as before once there is a file at the path.
* `FileTree.create_eq_ok`, `FileTree.append_put` — starting a file and adding to it.
-/

namespace ScriptHints.Command.FileTree

variable {t : FileTree} {path : Path}

/-! ### One path -/

/-- The root is a directory, so what is no directory is at a path of its own. -/
theorem ne_nil_of_node? (h : t.node? path ≠ some .directory) : path ≠ [] := by
  rintro rfl
  exact h rfl

/-- What was put at a path is there, unless a directory was. -/
theorem node?_put_self (h : t.node? path ≠ some .directory) (node : Node) :
    (t.put path node).node? path = some node := by
  rw [node?, if_neg (ne_nil_of_node? h), put, List.lookup_cons_self]

/-- Removing what is at a path leaves what is at others. -/
theorem lookup_filter_of_ne {nodes : List (Path × Node)} {other : Path} (h : other ≠ path) :
    (nodes.filter (·.1 != path)).lookup other = nodes.lookup other := by
  induction nodes with
  | nil => rfl
  | cons entry nodes ih =>
    obtain ⟨place, node⟩ := entry
    by_cases hplace : place = path
    · subst hplace
      rw [List.filter_cons_of_neg (by simp), ih, List.lookup_cons, beq_false_of_ne h]
    · rw [List.filter_cons_of_pos (by simpa using hplace), List.lookup_cons, List.lookup_cons, ih]

/-- A put changes nothing at other paths. -/
theorem node?_put_of_ne {other : Path} (h : other ≠ path) (node : Node) :
    (t.put path node).node? other = t.node? other := by
  rw [node?, node?, put, List.lookup_cons, beq_false_of_ne h]
  simp only [lookup_filter_of_ne h]

/-- Of several puts at a path the last one counts. -/
theorem put_put (t : FileTree) (path : Path) (node node' : Node) :
    (t.put path node).put path node' = t.put path node' := by
  have hagain : ((path, node) :: t.nodes.filter (·.1 != path)).filter (·.1 != path) =
      t.nodes.filter (·.1 != path) := by
    rw [List.filter_cons_of_neg (by simp), List.filter_filter]
    simp only [Bool.and_self]
  simp only [put, hagain]

/-! ### Names -/

/-- The paths that following steps from a directory looks at on the way, the last step apart. -/
def passedFrom (t : FileTree) (here : Path) : List String → List Path
  | [] => []
  | step :: steps =>
    if step = "" ∨ step = "." then passedFrom t here steps
    else if step = ".." then passedFrom t here.dropLast steps
    else if steps = [] then []
    else (here ++ [step]) ::
      match t.find (here ++ [step]) with
      | .ok (some .directory) => passedFrom t (here ++ [step]) steps
      | _ => []

/-- The paths that a name passes on its way. -/
def passed (t : FileTree) (name : String) : List Path :=
  t.passedFrom (if name.toList.head? = some '/' then [] else t.workplace) (stepsOf name)

/-- The name does not come by the path: it does not lead there, and unless there is something there
already it does not pass there. -/
structure Avoids (t : FileTree) (path : Path) (name : String) : Prop where
  leads : t.resolve name (stepsOf name) ≠ .ok path
  passes : t.node? path = none → path ∉ t.passed name

/-- A put does not change what is found at other paths. -/
theorem find_put_of_ne {other : Path} (h : other ≠ path) (node : Node) :
    (t.put path node).find other = t.find other := by
  rw [find, find, node?_put_of_ne h]

/-- Once a file is put at a path, steps lead where they led before: either they do not pass the
path, or there was something else than a directory already. -/
theorem follow_put {here : Path} {steps : List String} (hdir : t.node? path ≠ some .directory)
    (h : t.node? path = none → path ∉ t.passedFrom here steps) (bytes : ByteArray) :
    (t.put path (.file bytes)).follow here steps = t.follow here steps := by
  induction steps generalizing here with
  | nil => rfl
  | cons step steps ih =>
    rw [follow, follow]
    rw [passedFrom] at h
    split_ifs at h ⊢ with hstay hup hlast
    · exact ih h
    · exact ih h
    · rfl
    by_cases hpath : here ++ [step] = path
    · -- the way ends at what is at the path, before and after
      rw [hpath, find, find, node?_put_self hdir]
      split_ifs with hlimit
      · rcases hnode : t.node? path with _ | _ | _ | device
        · rw [hpath] at h
          exact absurd List.mem_cons_self (h hnode)
        · rfl
        · exact absurd hnode hdir
        · rfl
      · rfl
    · rw [find_put_of_ne hpath]
      replace h := fun hnone => not_or.1 (mt List.mem_cons.2 (h hnone))
      generalize t.find (here ++ [step]) = found at h ⊢
      rcases found with e | _ | _ | _ | device
      · rfl
      · rfl
      · rfl
      · exact ih fun hnone => (h hnone).2
      · rfl

section

variable {name : String}

/-- A name that does not come by a path leads where it led before. -/
theorem Avoids.resolve_put (h : t.Avoids path name) (hdir : t.node? path ≠ some .directory)
    (bytes : ByteArray) :
    (t.put path (.file bytes)).resolve name (stepsOf name) = t.resolve name (stepsOf name) := by
  have hworkplace : (t.put path (.file bytes)).workplace = t.workplace := rfl
  rw [resolve, resolve, hworkplace, follow_put hdir h.passes]

/-- A name that does not come by a path is read as before once there is a file at the path. -/
theorem Avoids.read_put (h : t.Avoids path name) (hdir : t.node? path ≠ some .directory)
    (bytes : ByteArray) : (t.put path (.file bytes)).read name = t.read name := by
  rw [read, read, h.resolve_put hdir]
  rcases hfound : t.resolve name (stepsOf name) with e | found
  · rfl
  · have hne : found ≠ path := by
      rintro rfl
      exact h.leads hfound
    show (find (t.put path _) found >>= _) = (t.find found >>= _)
    rw [find_put_of_ne hne]

end

/-! ### Writing -/

/-- Two steps in a row that succeed have both succeeded. -/
theorem exists_of_bind_eq_ok {ε α β : Type} {x : Except ε α} {f : α → Except ε β} {b : β}
    (h : (x >>= f) = .ok b) : ∃ a, x = .ok a ∧ f a = .ok b := by
  rcases x with e | a
  · cases h
  · exact ⟨a, rfl, h⟩

/-- Starting a file that is no device puts an empty file at a path where no directory is. -/
theorem create_eq_ok {name : String} {t' : FileTree} (h : t.create name = .ok (path, t'))
    (hdevice : ∀ device, t.node? path ≠ some (.device device)) :
    t.node? path ≠ some .directory ∧ t' = t.put path (.file .empty) := by
  obtain ⟨found, -, h⟩ := exists_of_bind_eq_ok h
  split_ifs at h with hslash
  obtain ⟨node, hnode, h⟩ := exists_of_bind_eq_ok h
  rw [find] at hnode
  split_ifs at hnode with hlimit
  have hfound : t.node? found = node := Except.ok.inj hnode
  rcases node with _ | bytes | _ | device
  · obtain ⟨rfl, rfl⟩ := Prod.mk.inj (Except.ok.inj h)
    exact ⟨by simp [hfound], rfl⟩
  · obtain ⟨rfl, rfl⟩ := Prod.mk.inj (Except.ok.inj h)
    exact ⟨by simp [hfound], rfl⟩
  · cases h
  · obtain ⟨rfl, rfl⟩ := Prod.mk.inj (Except.ok.inj h)
    exact absurd hfound (hdevice device)

/-- Adding to a file that was put at a path. -/
theorem append_put (hdir : t.node? path ≠ some .directory) (old bytes : ByteArray) :
    (t.put path (.file old)).append path bytes = t.put path (.file (old ++ bytes)) := by
  rw [append, node?_put_self hdir]
  exact put_put t path _ _

end ScriptHints.Command.FileTree
