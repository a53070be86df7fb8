import TemplateEngine.Artifact.Format
import TemplateEngine.Files.Tree
import TemplateEngine.Template.Source

/-!
# Artifact caches

A cache gives the program of a source, from its store if it can. What the store has
is used only if it is newer than the source, can be read, and says that it is of the
cache's format and of this very template. Anything less is a miss, and a miss is
never an error: the source is compiled, and the result kept.
-/

/-!
## Artifact stores

A store keeps the bytes of artifacts by the identity of their template and by their
format, each with the time it was stored. It promises little: what it keeps may be
lost, replaced or damaged, and keeping something may silently fail. In memory, every
identity and format has an entry of its own. In a directory an entry is a file, and
different identities can share one.
-/
namespace TemplateEngine

/-- Kept bytes, with the time they were stored. -/
structure Stored where
  stamp : Nat
  bytes : Bytes
  deriving DecidableEq, Repr

/-- How artifacts are kept in something. -/
structure ArtifactStore (σ : Type) where
  /-- What is kept for an identity and a format. -/
  load : Text → Text → σ → Option Stored
  /-- Keeps bytes for an identity and a format, at a time. -/
  save : Nat → Text → Text → Bytes → σ → σ

/-- Entries in memory, by identity and format. -/
abbrev MemoryStore := List ((Text × Text) × Stored)

namespace MemoryStore

/-- The entries with one put under its identity and format. -/
def insert (identity format : Text) (stored : Stored) (entries : MemoryStore) : MemoryStore :=
  ((identity, format), stored) :: entries.filter fun entry => entry.1 ≠ (identity, format)

/-- Artifacts kept in memory. -/
def store : ArtifactStore MemoryStore where
  load identity format entries := entries.lookup (identity, format)
  save now identity format bytes entries := insert identity format ⟨now, bytes⟩ entries

end MemoryStore

namespace DirectoryStore

/-- Text with everything but letters, digits, hyphens and dots replaced. -/
def sanitize (t : Text) : Text :=
  t.map fun c => if c.isAlphanum || c = '-' || c = '.' then c else '_'

/-- The name of the file for an identity and a format. -/
def fileName (identity format : Text) : Text :=
  sanitize identity ++ '_' :: sanitize format ++ ".json"

/-- The path of the file for an identity and a format. -/
def path (dir identity format : Text) : Text := Path.join dir (fileName identity format)

/-- What the file for an identity and a format holds. -/
def load (dir identity format : Text) (files : FileTree) : Option Stored :=
  match files.stamp (path dir identity format), files.read (path dir identity format) with
  | .ok stamp, .ok bytes => some ⟨stamp, bytes⟩
  | _, _ => none

/-- Artifacts kept as the files of a directory. -/
def store (dir : Text) : ArtifactStore FileTree where
  load := load dir
  save now identity format bytes files :=
    files.writeInto dir (fileName identity format) bytes now

end DirectoryStore

/-! ## Caches -/

/-- A cache: its store, unless it has none, and the format of its artifacts. -/
structure ArtifactCache (σ : Type) where
  store : Option (ArtifactStore σ)
  format : Text

/-- How often a cache found something and how often it did not. -/
structure CacheStats where
  hits : Nat
  misses : Nat
  deriving DecidableEq, Repr

namespace CacheStats

/-- Nothing was asked for yet. -/
def zero : CacheStats := ⟨0, 0⟩

/-- The counts after one more hit. -/
def hit (s : CacheStats) : CacheStats := { s with hits := s.hits + 1 }

/-- The counts after one more miss. -/
def miss (s : CacheStats) : CacheStats := { s with misses := s.misses + 1 }

end CacheStats

namespace ArtifactCache

variable {σ : Type}

/-- The format that artifacts have unless said otherwise. -/
def defaultFormat : Text := "weft-1"

/-- A cache over a store. -/
def onStore (store : ArtifactStore σ) : ArtifactCache σ := ⟨some store, defaultFormat⟩

/-- A cache that keeps nothing. -/
def disabled : ArtifactCache σ := ⟨none, defaultFormat⟩

/-- The program that stored bytes hold, if it may stand for a template that was last
changed at a given time. -/
def fresh? (format identity : Text) (stamp : Nat) (stored : Stored) : Option Program :=
  if stored.stamp ≤ stamp then none
  else
    match Artifact.decode? stored.bytes with
    | none => none
    | some artifact =>
      if artifact.format = format && artifact.program.name = identity then some artifact.program
      else none

/-- The program that the store has for a source. -/
def find? (cache : ArtifactCache σ) (source : Source) (kept : σ) : Option Program := do
  let store ← cache.store
  let identity ← source.identity
  let stamp ← source.stamp
  let stored ← store.load identity cache.format kept
  fresh? cache.format identity stamp stored

/-- What is kept after a program was compiled from a source. -/
def keep (cache : ArtifactCache σ) (now : Nat) (source : Source) (program : Program) (kept : σ) :
    σ :=
  match cache.store, source.identity with
  | some store, some identity =>
    store.save now identity cache.format (Artifact.encode ⟨cache.format, program⟩) kept
  | _, _ => kept

/-- The program of a source, with the counts and what is kept afterwards. -/
def compile (cache : ArtifactCache σ) (now : Nat) (source : Source) (stats : CacheStats)
    (kept : σ) : Except TemplateError Program × CacheStats × σ :=
  match cache.find? source kept with
  | some program => (.ok program, stats.hit, kept)
  | none =>
    match source.compile with
    | .error error => (.error error, stats.miss, kept)
    | .ok program => (.ok program, stats.miss, cache.keep now source program kept)

end ArtifactCache

end TemplateEngine
