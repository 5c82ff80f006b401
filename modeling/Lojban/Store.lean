import Lojban.Lexicon

/-!
# Stores

A store loads a lexicon when it is first asked for one, and gives the same answer ever after: the
lexicon, or the failure to load it.
-/

namespace Lojban

/-- What a store knows. -/
inductive Store.State where
  /-- Nothing has been loaded. -/
  | fresh
  | loaded (lex : Lexicon)
  | failed (e : LoadError)

/-- A lexicon that is loaded on demand. -/
structure Store where
  sources : Sources := {}
  state : Store.State := .fresh

namespace Store

/-- Whether the lexicon has been loaded. -/
def isLoaded (s : Store) : Bool :=
  match s.state with
  | .loaded _ => true
  | _ => false

/-- The lexicon. The first call reads the lists, and a failure to do so is recorded; a path that is
none at all leaves the store as it is. -/
def get (view : DiskView) (s : Store) : Logged (Except Trouble Lexicon × Store) :=
  match s.state with
  | .loaded lex => return (.ok lex, s)
  | .failed e => return (.error (.failure (.unreadable e)), s)
  | .fresh => do
    match ← Lexicon.load view s.sources with
    | .ok lex => return (.ok lex, { s with state := .loaded lex })
    | .error (.failure (.unreadable e)) =>
      Logged.note Source.lexicon Level.error ("Wordlist initialization failed: " ++ e.message)
      return (.error (.failure (.unreadable e)), { s with state := .failed e })
    | .error t => return (.error t, s)

end Store

end Lojban
