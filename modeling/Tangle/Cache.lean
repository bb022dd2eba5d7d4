import Tangle.Extraction

/-!
Contract: extractions remembered per document and version.

Owns: the association of keys with a version and its extraction.

Does **not** own: how an extraction is built (`Tangle.Extraction`).

A key is the path that the document is built under. The cache holds at most one
version per key, and nothing but speed depends on it.
-/

set_option autoImplicit false

namespace Tangle

open Tangle.Generate

structure CacheEntry where
  version : Nat
  extraction : Extraction
  deriving Inhabited

/-- Entries by key, no key twice. -/
structure Cache where
  options : Options
  entries : List (String × CacheEntry) := []
  deriving Inhabited

namespace Cache

def empty (options : Options) : Cache :=
  { options := options }

def find? (cache : Cache) (key : String) : Option CacheEntry :=
  (cache.entries.find? fun entry => entry.1 == key).map Prod.snd

/-- The entry of `key`, if it has exactly this version. -/
def get? (cache : Cache) (key : String) (version : Nat) : Option Extraction :=
  match cache.find? key with
  | some entry => if entry.version = version then some entry.extraction else none
  | none => none

def erase (cache : Cache) (key : String) : Cache :=
  { cache with entries := cache.entries.filter fun entry => entry.1 != key }

def insert (cache : Cache) (key : String) (entry : CacheEntry) : Cache :=
  { cache with entries := (key, entry) :: (cache.erase key).entries }

/-- The entry of `key` at `version`, built from `text` unless it is there. -/
def getOrBuild (cache : Cache) (key : String) (version : Nat) (text : String) :
    Extraction × Cache :=
  match cache.get? key version with
  | some extraction => (extraction, cache)
  | none =>
      let extraction := Extraction.build text key cache.options
      (extraction, cache.insert key ⟨version, extraction⟩)

/-- Forgets `key`, and tells whether there was anything to forget. -/
def invalidate (cache : Cache) (key : String) : Bool × Cache :=
  ((cache.find? key).isSome, cache.erase key)

def size (cache : Cache) : Nat :=
  cache.entries.length

def isEmpty (cache : Cache) : Bool :=
  cache.entries.isEmpty

end Cache

end Tangle
