import TemplateEngine.Files.Tree
import TemplateEngine.Proofs.Text.Replacement

/-!
# Where paths lead

A path that leads somewhere leads to its target. A file written into a directory is
the only one that changes: what else is a file afterwards was that file before.
-/
namespace TemplateEngine

section Lookups

variable {α β : Type} [BEq α] [LawfulBEq α] [DecidableEq α] {entries : List (α × β)}
  {without key : α}

theorem lookup_filter_of_ne (hkey : key ≠ without) :
    (entries.filter fun entry => entry.1 ≠ without).lookup key = entries.lookup key := by
  induction entries with
  | nil => rfl
  | cons entry entries ih =>
      obtain ⟨other, found⟩ := entry
      by_cases hother : other = without
      · have hne : (key == other) = false := beq_false_of_ne (hother ▸ hkey)
        rw [List.filter_cons_of_neg (by simpa using hother), List.lookup_cons, hne, ih]
      · rw [List.filter_cons_of_pos (by simpa using hother), List.lookup_cons, List.lookup_cons, ih]

/-- What is found without the entries of one key is found among all entries. -/
theorem lookup_of_lookup_filter {b : β}
    (h : (entries.filter fun entry => entry.1 ≠ without).lookup key = some b) :
    entries.lookup key = some b := by
  rwa [lookup_filter_of_ne] at h
  rintro rfl
  obtain ⟨before, after, heq, -⟩ := List.lookup_eq_some_iff.mp h
  have hmem : (key, b) ∈ entries.filter fun entry => entry.1 ≠ key :=
    heq ▸ List.mem_append_right before List.mem_cons_self
  simpa using (List.mem_filter.mp hmem).2

end Lookups

/-- The name of a file: a part of a path that leads one step down. -/
structure Path.IsName (name : Text) : Prop where
  noSlash : '/' ∉ name
  notEmpty : name ≠ []
  notHere : name ≠ ['.']
  notAbove : name ≠ ['.', '.']

namespace FileTree

/-- The place one part of a path leads to. -/
def descend (place : List Text) (part : Text) : List Text :=
  if part.isEmpty || part = ['.'] then place
  else if part = ['.', '.'] then place.dropLast
  else place ++ [part]

/-- The place of a directory; the empty path names the one that relative paths start from. -/
def directory (t : FileTree) (dir : Text) : List Text :=
  if dir.isEmpty then t.working else t.target dir

theorem target_eq_foldl (t : FileTree) (path : Text) :
    t.target path = (Path.parts path).foldl descend (t.origin path) := rfl

theorem descend_name {name : Text} (h : Path.IsName name) (place : List Text) :
    descend place name = place ++ [name] := by
  simp [descend, h.notEmpty, h.notHere, h.notAbove]

theorem follow_eq_foldl {t : FileTree} {place : List Text} {parts : List Text} {q : List Text}
    (h : t.follow place parts = .ok q) : q = parts.foldl descend place := by
  induction parts generalizing place with
  | nil => exact (Except.ok.inj h).symm
  | cons part parts ih =>
      rw [follow] at h
      split at h
      · exact nomatch h
      · exact nomatch h
      · rw [List.foldl_cons, descend]
        split at h
        · rw [if_pos ‹_›]
          exact ih h
        · rw [if_neg ‹_›]
          split at h
          · rw [if_pos ‹_›]
            exact ih h
          · rw [if_neg ‹_›]
            split at h
            · exact nomatch h
            · exact ih h

theorem resolve_eq_target {t : FileTree} {path : Text} {q : List Text}
    (h : t.resolve path = .ok q) : q = t.target path := by
  rw [resolve] at h
  split at h
  · exact nomatch h
  · exact follow_eq_foldl h

theorem target_join (t : FileTree) (dir : Text) {name : Text} (h : Path.IsName name) :
    t.target (Path.join dir name) = t.directory dir ++ [name] := by
  have hname : Path.parts name = [name] := Text.cutAt_eq_singleton h.noSlash
  have habsolute : Path.isAbsolute name = false := by
    obtain ⟨c, rest, rfl⟩ := List.exists_cons_of_ne_nil h.notEmpty
    have hc : c ≠ '/' := fun hc => h.noSlash (hc ▸ List.mem_cons_self)
    simp [Path.isAbsolute, hc]
  have hstep (parts : List Text) (start : List Text) :
      (parts ++ [name]).foldl descend start = parts.foldl descend start ++ [name] := by
    rw [List.foldl_append, List.foldl_cons, List.foldl_nil, descend_name h]
  rw [Path.join, habsolute, if_neg Bool.false_ne_true, directory, target_eq_foldl]
  rcases List.eq_nil_or_concat dir with rfl | ⟨front, last, rfl⟩
  · change (Path.parts name).foldl descend (t.origin name) = t.working ++ [name]
    rw [hname, origin, habsolute]
    exact descend_name h t.working
  · have hnonempty : (front ++ [last]).isEmpty = false := by cases front <;> rfl
    have horigin (more : Text) : t.origin (front ++ [last] ++ more) = t.origin (front ++ [last]) := by
      cases front <;> rfl
    rw [List.concat_eq_append, hnonempty, if_neg Bool.false_ne_true, Bool.false_or,
      List.getLast?_append]
    by_cases hlast : last = '/'
    · subst hlast
      have hjoined : Path.parts (front ++ ['/'] ++ name) = Path.parts front ++ [name] := by
        rw [List.append_assoc]
        exact (Text.cutAt_append_mark '/' front name).trans (congrArg _ hname)
      have hdir : Path.parts (front ++ ['/']) = Path.parts front ++ [[]] :=
        Text.cutAt_append_mark '/' front []
      rw [if_pos (by simp), horigin, hjoined, hstep, target_eq_foldl, hdir, List.foldl_append]
      rfl
    · have hjoined : Path.parts (front ++ [last] ++ '/' :: name) =
          Path.parts (front ++ [last]) ++ [name] :=
        (Text.cutAt_append_mark '/' (front ++ [last]) name).trans (congrArg _ hname)
      rw [if_neg (by simp [hlast]), horigin, hjoined, hstep, target_eq_foldl]

theorem working_put (place : List Text) (node : FileNode) (t : FileTree) :
    (t.put place node).working = t.working := rfl

theorem target_congr {t u : FileTree} (h : t.working = u.working) (path : Text) :
    t.target path = u.target path := by
  rw [target_eq_foldl, target_eq_foldl, origin, origin, h]

theorem lookup_directories {missing : List (List Text)} {q : List Text} {node : FileNode}
    (h : (missing.map fun dir => (dir, FileNode.directory)).lookup q = some node) :
    node = .directory := by
  induction missing with
  | nil => exact nomatch h
  | cons dir missing ih =>
      rw [List.map_cons, List.lookup_cons] at h
      split at h
      · exact (Option.some.inj h).symm
      · exact ih h

/-- What is a file after something was put at a place is what was put there, or was that file
before. -/
theorem file_put {t : FileTree} {place q : List Text} {node : FileNode} {bytes : Bytes}
    {stamp : Nat} (h : (t.put place node).node? q = some (.file bytes stamp)) :
    (q = place ∧ node = .file bytes stamp) ∨ t.node? q = some (.file bytes stamp) := by
  unfold node? at h ⊢
  split
  · rename_i hq
    rw [if_pos hq] at h
    exact nomatch h
  · rename_i hq
    rw [if_neg hq, put, List.append_assoc, List.lookup_append, List.lookup_append] at h
    rcases Option.or_eq_some_iff.mp h with hmissing | ⟨-, hrest⟩
    · exact nomatch lookup_directories hmissing
    rcases Option.or_eq_some_iff.mp hrest with hothers | ⟨-, hnew⟩
    · exact .inr (lookup_of_lookup_filter hothers)
    · rw [List.lookup_cons] at hnew
      split at hnew
      · exact .inl ⟨eq_of_beq ‹_›, Option.some.inj hnew⟩
      · exact nomatch hnew

theorem file_makeDirectory? {t u : FileTree} {place q : List Text} {bytes : Bytes} {stamp : Nat}
    (hu : t.makeDirectory? place = some u) (h : u.node? q = some (.file bytes stamp)) :
    t.node? q = some (.file bytes stamp) := by
  rw [makeDirectory?] at hu
  split at hu
  · exact nomatch hu
  · split at hu
    · obtain rfl := Option.some.inj hu
      exact h
    · obtain rfl := Option.some.inj hu
      rcases file_put h with ⟨-, hnode⟩ | hfile
      · exact nomatch hnode
      · exact hfile

theorem working_makeDirectory? {t u : FileTree} {place : List Text}
    (hu : t.makeDirectory? place = some u) : u.working = t.working := by
  rw [makeDirectory?] at hu
  split at hu
  · exact nomatch hu
  · split at hu <;> (obtain rfl := Option.some.inj hu; rfl)

theorem working_writeInto (dir name : Text) (bytes : Bytes) (stamp : Nat) (t : FileTree) :
    (t.writeInto dir name bytes stamp).working = t.working := by
  rw [writeInto]
  split
  · rfl
  · have hworking := working_makeDirectory? ‹_›
    split
    · exact hworking
    · exact (working_put _ _ _).trans hworking

theorem lookup_directories_none {missing : List (List Text)} {q : List Text} (h : q ∉ missing) :
    (missing.map fun dir => (dir, FileNode.directory)).lookup q = none := by
  rw [List.lookup_eq_none_iff]
  intro entry hentry
  obtain ⟨dir, hdir, rfl⟩ := List.mem_map.mp hentry
  have hne : q ≠ dir := fun heq => h (heq ▸ hdir)
  simpa using hne

/-- A file stays what it is if something is put at another place. -/
theorem file_put_of_ne {t : FileTree} {place q : List Text} {node : FileNode} {bytes : Bytes}
    {stamp : Nat} (hq : q ≠ place) (h : t.node? q = some (.file bytes stamp)) :
    (t.put place node).node? q = some (.file bytes stamp) := by
  have hmissing : q ∉ ((List.range place.length).map fun n => place.take n).filter
      fun dir => (t.node? dir).isNone := by
    intro hmem
    have hnone := (List.mem_filter.mp hmem).2
    rw [h] at hnone
    exact nomatch hnone
  unfold node? at h ⊢
  split at h
  · exact nomatch h
  · rename_i hnonempty
    rw [if_neg hnonempty, put, List.append_assoc, List.lookup_append,
      lookup_directories_none hmissing, Option.none_or, List.lookup_append,
      lookup_filter_of_ne hq, h]
    rfl

/-- What is put at a place below the root is there. -/
theorem node_put_self {place : List Text} (hplace : place ≠ []) (node : FileNode) (t : FileTree) :
    (t.put place node).node? place = some node := by
  have hmissing : place ∉ ((List.range place.length).map fun n => place.take n).filter
      fun dir => (t.node? dir).isNone := by
    intro hmem
    obtain ⟨n, hn, htake⟩ := List.mem_map.mp (List.mem_filter.mp hmem).1
    have hlength := congrArg List.length htake
    rw [List.length_take] at hlength
    have := List.mem_range.mp hn
    omega
  have hothers : (t.nodes.filter fun entry => entry.1 ≠ place).lookup place = none := by
    rw [List.lookup_eq_none_iff]
    intro entry hentry
    exact bne_iff_ne.mpr (of_decide_eq_true (List.mem_filter.mp hentry).2).symm
  unfold node?
  rw [if_neg (by simpa using hplace), put, List.append_assoc, List.lookup_append,
    lookup_directories_none hmissing, Option.none_or, List.lookup_append, hothers, Option.none_or,
    List.lookup_cons_self]

theorem file_makeDirectory?_of {t u : FileTree} {place q : List Text} {bytes : Bytes} {stamp : Nat}
    (hu : t.makeDirectory? place = some u) (h : t.node? q = some (.file bytes stamp)) :
    u.node? q = some (.file bytes stamp) := by
  rw [makeDirectory?] at hu
  split at hu
  · exact nomatch hu
  · split at hu
    · obtain rfl := Option.some.inj hu
      exact h
    · rename_i hnone
      obtain rfl := Option.some.inj hu
      refine file_put_of_ne (fun heq => hnone ?_) h
      rw [← heq, h]
      rfl

/-- Every file stays what it is if one is written into a directory, unless it is the one. -/
theorem file_writeInto_of {dir name : Text} {written bytes : Bytes} {now stamp : Nat} {t : FileTree}
    {q : List Text} (h : t.node? q = some (.file bytes stamp)) :
    (t.writeInto dir name written now).node? q = some (.file bytes stamp) ∨
      q = t.directory dir ++ [name] ∧
        (t.writeInto dir name written now).node? q = some (.file written now) := by
  rw [writeInto]
  split
  · exact .inl h
  · have hfile := file_makeDirectory?_of ‹_› h
    split
    · exact .inl hfile
    · by_cases hq : q = t.directory dir ++ [name]
      · subst hq
        exact .inr ⟨rfl, node_put_self (by simp) _ _⟩
      · exact .inl (file_put_of_ne hq hfile)

/-- What is a file after one was written into a directory is that one, in its place, or was that
file before. -/
theorem file_writeInto_place {dir name : Text} {written bytes : Bytes} {now stamp : Nat}
    {t : FileTree} {q : List Text}
    (h : (t.writeInto dir name written now).node? q = some (.file bytes stamp)) :
    (q = t.directory dir ++ [name] ∧ bytes = written ∧ stamp = now) ∨
      t.node? q = some (.file bytes stamp) := by
  rw [writeInto] at h
  split at h
  · exact .inr h
  · rename_i u hu
    split at h
    · exact .inr (file_makeDirectory? hu h)
    · rcases file_put h with ⟨hplace, hnode⟩ | hfile
      · obtain ⟨rfl, rfl⟩ := FileNode.file.inj hnode
        exact .inl ⟨hplace, rfl, rfl⟩
      · exact .inr (file_makeDirectory? hu hfile)

/-- What is a file after one was written into a directory is that one, or was that file before. -/
theorem file_writeInto {dir name : Text} {written bytes : Bytes} {now stamp : Nat} {t : FileTree}
    {q : List Text}
    (h : (t.writeInto dir name written now).node? q = some (.file bytes stamp)) :
    (bytes = written ∧ stamp = now) ∨ t.node? q = some (.file bytes stamp) :=
  (file_writeInto_place h).imp_left And.right

theorem directory_writeInto (dir name : Text) (bytes : Bytes) (stamp : Nat) (t : FileTree) :
    (t.writeInto dir name bytes stamp).directory dir = t.directory dir := by
  have hworking := working_writeInto dir name bytes stamp t
  rw [directory, directory, hworking, target_congr hworking]

/-- The stamp and the bytes of a path are those of the file at its target. -/
theorem file_of_stamp_of_read {t : FileTree} {path : Text} {bytes : Bytes} {stamp : Nat}
    (hstamp : t.stamp path = .ok stamp) (hread : t.read path = .ok bytes) :
    t.node? (t.target path) = some (.file bytes stamp) := by
  rw [FileTree.stamp] at hstamp
  rw [read] at hread
  cases hresolve : t.resolve path with
  | error cause =>
      rw [hresolve] at hstamp
      cases hstamp
  | ok place =>
      have hplace := resolve_eq_target hresolve
      rw [hresolve] at hstamp hread
      dsimp only [Except.map, bind, Except.bind, pure, Except.pure] at hstamp hread
      rw [← hplace]
      split at hread
      · rename_i found time hnode
        rw [hnode] at hstamp
        obtain rfl := Except.ok.inj hread
        obtain rfl : time = stamp := Except.ok.inj hstamp
        exact hnode
      · cases hread

end FileTree

end TemplateEngine
