import TemplateEngine.Proofs.Artifact.Transparency

/-!
# What a store can do to its caches, and they to it

A store may hold anything: nothing, outdated entries, bytes that are no artifact, artifacts of
other templates and formats. Whatever it is, a cache fails only as compilation does. A hit changes
nothing and is a program that names the template; a miss puts the program of the source into the
entry of its identity and format and leaves every other entry alone. Each request is counted once.
-/
namespace TemplateEngine

/-- How what a store holds falls into entries: what is at a slot, and the slot of an identity and a
format. -/
structure StoreLayout (σ κ : Type) where
  entry : σ → κ → Option Stored
  slot : σ → Text → Text → κ

/-- What is loaded is the entry at its slot, and saving changes no entry but that at its slot. -/
structure StoreLayout.Describes {σ κ : Type} (layout : StoreLayout σ κ) (store : ArtifactStore σ) :
    Prop where
  load : ∀ {identity format : Text} {kept : σ} {s : Stored},
    store.load identity format kept = some s →
      layout.entry kept (layout.slot kept identity format) = some s
  save : ∀ {now : Nat} {identity format : Text} {bytes : Bytes} {kept : σ} {slot : κ},
    layout.entry (store.save now identity format bytes kept) slot ≠ layout.entry kept slot →
      slot = layout.slot kept identity format ∧
        layout.entry (store.save now identity format bytes kept) slot = some ⟨now, bytes⟩

namespace MemoryStore

/-- In memory every identity and format has an entry of its own. -/
def layout : StoreLayout MemoryStore (Text × Text) where
  entry entries key := entries.lookup key
  slot _ identity format := (identity, format)

theorem layout_describes : layout.Describes store where
  load := id
  save := by
    intro now identity format bytes entries key hchanged
    change (((identity, format), _) :: entries.filter _).lookup key ≠ entries.lookup key at hchanged
    change key = _ ∧ (((identity, format), _) :: entries.filter _).lookup key = _
    rw [List.lookup_cons] at hchanged ⊢
    split at hchanged
    · rename_i hkey
      exact ⟨eq_of_beq hkey, rfl⟩
    · rename_i hkey
      exact absurd (lookup_filter_of_ne (ne_of_beq_false hkey)) hchanged

end MemoryStore

namespace DirectoryStore

/-- The file at a place. -/
def fileAt (files : FileTree) (place : List Text) : Option Stored :=
  match files.node? place with
  | some (.file bytes stamp) => some ⟨stamp, bytes⟩
  | _ => none

/-- In a directory the entry of an identity and a format is a file. Every file counts as an entry,
wherever it is. -/
def layout (dir : Text) : StoreLayout FileTree (List Text) where
  entry := fileAt
  slot files identity format := files.directory dir ++ [fileName identity format]

theorem fileAt_eq_some_iff {files : FileTree} {place : List Text} {s : Stored} :
    fileAt files place = some s ↔ files.node? place = some (.file s.bytes s.stamp) := by
  unfold fileAt
  split
  · rename_i bytes stamp hnode
    rw [hnode, Option.some.injEq, Option.some.injEq, FileNode.file.injEq]
    cases s
    simp only [Stored.mk.injEq]
    exact and_comm
  · rename_i hother
    exact ⟨fun h => (nomatch h), fun h => absurd h (hother _ _)⟩

theorem layout_describes (dir : Text) : (layout dir).Describes (store dir) where
  load := by
    intro identity format files s h
    change load dir identity format files = some s at h
    unfold load at h
    split at h
    · rename_i stamp bytes hstamp hread
      obtain rfl := Option.some.inj h
      have hfile := FileTree.file_of_stamp_of_read hstamp hread
      rw [path, FileTree.target_join _ _ (isName_fileName identity format)] at hfile
      exact fileAt_eq_some_iff.mpr hfile
    · cases h
  save := by
    intro now identity format bytes files place hchanged
    change fileAt (files.writeInto dir (fileName identity format) bytes now) place ≠
      fileAt files place at hchanged
    change place = files.directory dir ++ [fileName identity format] ∧
      fileAt (files.writeInto dir (fileName identity format) bytes now) place = _
    cases hbefore : fileAt files place with
    | some s =>
        have hfile : (files.writeInto dir (fileName identity format) bytes now).node? place =
            some (.file s.bytes s.stamp) ∨ _ :=
          FileTree.file_writeInto_of (fileAt_eq_some_iff.mp hbefore)
        rcases hfile with hsame | ⟨hplace, hnew⟩
        · exact absurd ((fileAt_eq_some_iff.mpr hsame).trans hbefore.symm) hchanged
        · exact ⟨hplace, fileAt_eq_some_iff.mpr hnew⟩
    | none =>
        rw [hbefore] at hchanged
        obtain ⟨s, hafter⟩ := Option.ne_none_iff_exists'.mp hchanged
        rcases FileTree.file_writeInto_place (fileAt_eq_some_iff.mp hafter) with
          ⟨hplace, hbytes, hstamp⟩ | hfile
        · exact ⟨hplace, by rw [hafter, ← hbytes, ← hstamp]⟩
        · have hsome := hbefore.symm.trans (fileAt_eq_some_iff.mpr hfile)
          cases hsome

end DirectoryStore

namespace ArtifactCache

/-- A cache over a store with artifacts of a format, or without a format one that keeps nothing. -/
def backed {σ : Type} (store : ArtifactStore σ) : Option Text → ArtifactCache σ
  | some format => ⟨some store, format⟩
  | none => .disabled

/-- A request of a program: what became of the store since the last one, the time, and the source. -/
structure Request (σ : Type) where
  meanwhile : σ → σ
  now : Nat
  source : Source

variable {σ κ : Type}

/-- What a request gives, with the counts and the store afterwards. -/
def answer (cache : ArtifactCache σ) (request : Request σ) (stats : CacheStats) (kept : σ) :
    Except TemplateError Program × CacheStats × σ :=
  cache.compile request.now request.source stats (request.meanwhile kept)

/-- The counts after requests, one after another. -/
def counted (cache : ArtifactCache σ) : List (Request σ) → CacheStats → σ → CacheStats
  | [], stats, _ => stats
  | request :: requests, stats, kept =>
    let (_, stats, kept) := cache.answer request stats kept
    counted cache requests stats kept

/-- A stored program that may be answered for a source: one of the cache's format that names the
identity of the source, in the entry of both, and newer than the source. -/
def Fresh (layout : StoreLayout σ κ) (cache : ArtifactCache σ) (source : Source) (kept : σ)
    (program : Program) : Prop :=
  ∃ identity stamp s, source.identity = some identity ∧ source.stamp = some stamp ∧
    layout.entry kept (layout.slot kept identity cache.format) = some s ∧ stamp < s.stamp ∧
      Artifact.decode? s.bytes = some ⟨cache.format, program⟩ ∧ program.name = identity

/-- What a compiled program may change in the store: at most the entry of its identity and the format
of the cache, which then holds it. -/
def Replaces (layout : StoreLayout σ κ) (cache : ArtifactCache σ) (now : Nat) (source : Source)
    (program : Program) (before after : σ) : Prop :=
  ∀ slot, layout.entry after slot ≠ layout.entry before slot →
    ∃ identity, source.identity = some identity ∧ slot = layout.slot before identity cache.format ∧
      layout.entry after slot = some ⟨now, Artifact.encode ⟨cache.format, program⟩⟩

/-- How a request can end. -/
inductive Answered (layout : StoreLayout σ κ) (cache : ArtifactCache σ) (now : Nat) (source : Source)
    (stats : CacheStats) (before : σ) : Except TemplateError Program × CacheStats × σ → Prop
  | hit {program : Program} : Fresh layout cache source before program →
      Answered layout cache now source stats before (.ok program, stats.hit, before)
  | compiled {program : Program} {after : σ} : source.compile = .ok program →
      Replaces layout cache now source program before after →
      Answered layout cache now source stats before (.ok program, stats.miss, after)
  | failed {error : TemplateError} : source.compile = .error error →
      Answered layout cache now source stats before (.error error, stats.miss, before)

/-- What may come of a request, whatever the store holds: an error of compilation and nothing else
changed, a program of the source and at most its own entry changed, or a stored program that names
the source and nothing changed. What has no identity or no stamp is compiled. -/
structure Contained (layout : StoreLayout σ κ) (cache : ArtifactCache σ) (now : Nat) (source : Source)
    (stats : CacheStats) (before : σ) (answer : Except TemplateError Program × CacheStats × σ) :
    Prop where
  failure : ∀ error, answer.1 = .error error →
    source.compile = .error error ∧ answer.2.2 = before
  miss : answer.2.1 = stats.miss → answer.1 = source.compile ∧
    ∀ program, answer.1 = .ok program →
      Replaces layout cache now source program before answer.2.2
  hit : answer.2.1 = stats.hit → answer.2.2 = before ∧
    ∃ program, answer.1 = .ok program ∧ source.identity = some program.name ∧
      Fresh layout cache source before program
  unkeyed : source.identity = none ∨ source.stamp = none → answer.2.1 = stats.miss

/-- The requests of a run are contained, each in what the ones before it and others left. -/
def AllContained (layout : StoreLayout σ κ) (cache : ArtifactCache σ) :
    List (Request σ) → CacheStats → σ → Prop
  | [], _, _ => True
  | request :: requests, stats, kept =>
    Contained layout cache request.now request.source stats (request.meanwhile kept)
        (cache.answer request stats kept) ∧
      AllContained layout cache requests (cache.answer request stats kept).2.1
        (cache.answer request stats kept).2.2

theorem hit_ne_miss (stats : CacheStats) : stats.hit ≠ stats.miss := fun h =>
  Nat.succ_ne_self stats.hits (congrArg CacheStats.hits h)

theorem Answered.contained {layout : StoreLayout σ κ} {cache : ArtifactCache σ} {now : Nat}
    {source : Source} {stats : CacheStats} {before : σ}
    {answer : Except TemplateError Program × CacheStats × σ}
    (h : Answered layout cache now source stats before answer) :
    Contained layout cache now source stats before answer := by
  cases h with
  | @hit program hfresh =>
      obtain ⟨identity, stamp, s, hidentity, hstamp, hentry, hnewer, hdecoded, hname⟩ := hfresh
      refine ⟨fun _ h => (nomatch h), fun h => absurd h (hit_ne_miss stats), fun _ => ⟨rfl, program,
        rfl, hname ▸ hidentity, identity, stamp, s, hidentity, hstamp, hentry, hnewer, hdecoded,
        hname⟩, fun h => ?_⟩
      rcases h with hnone | hnone
      · exact nomatch hidentity.symm.trans hnone
      · exact nomatch hstamp.symm.trans hnone
  | compiled hcompile hreplaces =>
      refine ⟨fun _ h => (nomatch h), fun _ => ⟨hcompile.symm, fun program hprogram => ?_⟩,
        fun h => absurd h.symm (hit_ne_miss stats), fun _ => rfl⟩
      obtain rfl := Except.ok.inj hprogram
      exact hreplaces
  | failed hcompile =>
      refine ⟨fun error herror => ?_, fun _ => ⟨hcompile.symm, fun _ h => (nomatch h)⟩,
        fun h => absurd h.symm (hit_ne_miss stats), fun _ => rfl⟩
      obtain rfl := Except.error.inj herror
      exact ⟨hcompile, rfl⟩

section Requests

variable {layout : StoreLayout σ κ} {store : ArtifactStore σ} (hlayout : layout.Describes store)
include hlayout

theorem fresh_of_find? {format : Option Text} {source : Source} {kept : σ} {program : Program}
    (h : (backed store format).find? source kept = some program) :
    Fresh layout (backed store format) source kept program := by
  cases format with
  | none => exact nomatch h
  | some format =>
      unfold find? at h
      simp only [Option.bind_eq_bind, Option.bind_eq_some_iff] at h
      obtain ⟨used, hused, identity, hidentity, stamp, hstamp, s, hload, hfresh⟩ := h
      obtain rfl := Option.some.inj hused
      refine ⟨identity, stamp, s, hidentity, hstamp, hlayout.load hload, ?_⟩
      unfold fresh? at hfresh
      split at hfresh
      · exact nomatch hfresh
      rename_i hnewer
      split at hfresh
      · exact nomatch hfresh
      rename_i artifact hartifact
      split at hfresh
      · rename_i hmatches
        obtain rfl := Option.some.inj hfresh
        rw [Bool.and_eq_true, decide_eq_true_iff, decide_eq_true_iff] at hmatches
        refine ⟨Nat.not_le.mp hnewer, ?_, hmatches.2⟩
        rw [hartifact]
        exact congrArg (fun format => some (Artifact.mk format artifact.program)) hmatches.1
      · exact nomatch hfresh

theorem replaces_keep (format : Option Text) (now : Nat) (source : Source) (program : Program)
    (kept : σ) : Replaces layout (backed store format) now source program kept
      ((backed store format).keep now source program kept) := by
  intro slot hchanged
  unfold keep at hchanged ⊢
  cases format with
  | none => exact absurd rfl hchanged
  | some format =>
      split at hchanged
      · rename_i used identity hused hidentity
        obtain rfl := Option.some.inj hused
        obtain ⟨hslot, hentry⟩ := hlayout.save hchanged
        exact ⟨identity, hidentity, hslot, hentry⟩
      · exact absurd rfl hchanged

theorem answered_compile (format : Option Text) (now : Nat) (source : Source) (stats : CacheStats)
    (kept : σ) : Answered layout (backed store format) now source stats kept
      ((backed store format).compile now source stats kept) := by
  unfold compile
  split
  · exact .hit (fresh_of_find? hlayout ‹_›)
  · cases hcompile : source.compile with
    | error error => exact .failed hcompile
    | ok program => exact .compiled hcompile (replaces_keep hlayout format now source program kept)

/-- A request is a hit or a miss. -/
theorem hits_add_misses_answer (format : Option Text) (request : Request σ) (stats : CacheStats)
    (kept : σ) :
    ((backed store format).answer request stats kept).2.1.hits +
      ((backed store format).answer request stats kept).2.1.misses =
        stats.hits + stats.misses + 1 := by
  have h := answered_compile hlayout format request.now request.source stats
    (request.meanwhile kept)
  unfold answer
  generalize (backed store format).compile request.now request.source stats
    (request.meanwhile kept) = found at h ⊢
  cases h with
  | hit => exact Nat.add_right_comm _ _ _
  | compiled => rfl
  | failed => rfl

theorem hits_add_misses_counted (format : Option Text) (requests : List (Request σ))
    (stats : CacheStats) (kept : σ) :
    ((backed store format).counted requests stats kept).hits +
      ((backed store format).counted requests stats kept).misses =
        stats.hits + stats.misses + requests.length := by
  induction requests generalizing stats kept with
  | nil => rfl
  | cons request requests ih =>
      have hfirst := hits_add_misses_answer hlayout format request stats kept
      rw [counted, ih, hfirst, List.length_cons]
      omega

theorem allContained (format : Option Text) (requests : List (Request σ)) (stats : CacheStats)
    (kept : σ) : AllContained layout (backed store format) requests stats kept := by
  induction requests generalizing stats kept with
  | nil => trivial
  | cons request requests ih =>
      have hfirst := answered_compile hlayout format request.now request.source stats
        (request.meanwhile kept)
      exact ⟨hfirst.contained, ih _ _⟩

end Requests

/-- A cache of any format, or one that keeps nothing, over a store in memory or in a directory that
may hold anything whenever it is asked: every request is contained, and all of them together are
counted once each. -/
theorem requests_contained (format : Option Text) :
    (∀ (requests : List (Request MemoryStore)) (entries : MemoryStore),
      AllContained MemoryStore.layout (backed MemoryStore.store format) requests .zero entries ∧
        ((backed MemoryStore.store format).counted requests .zero entries).hits +
          ((backed MemoryStore.store format).counted requests .zero entries).misses =
            requests.length) ∧
    ∀ (dir : Text) (requests : List (Request FileTree)) (files : FileTree),
      AllContained (DirectoryStore.layout dir) (backed (DirectoryStore.store dir) format) requests
          .zero files ∧
        ((backed (DirectoryStore.store dir) format).counted requests .zero files).hits +
          ((backed (DirectoryStore.store dir) format).counted requests .zero files).misses =
            requests.length := by
  have hcounts {σ κ : Type} {layout : StoreLayout σ κ} {store : ArtifactStore σ}
      (hlayout : layout.Describes store) (requests : List (Request σ)) (kept : σ) :
      ((backed store format).counted requests .zero kept).hits +
        ((backed store format).counted requests .zero kept).misses = requests.length := by
    have h := hits_add_misses_counted hlayout format requests .zero kept
    rwa [CacheStats.zero, Nat.zero_add, Nat.zero_add] at h
  refine ⟨fun requests entries => ⟨?_, ?_⟩, fun dir requests files => ⟨?_, ?_⟩⟩
  · exact allContained MemoryStore.layout_describes format requests .zero entries
  · exact hcounts MemoryStore.layout_describes requests entries
  · exact allContained (DirectoryStore.layout_describes dir) format requests .zero files
  · exact hcounts (DirectoryStore.layout_describes dir) requests files

end ArtifactCache

end TemplateEngine
