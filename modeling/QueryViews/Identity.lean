import QueryViews.AscendingSet

/-! Identities of expressions and of FROM sources. Both are numbered in the order they are
minted, and a `Supply` is all that minting remembers. -/

namespace QueryViews

structure TokenId where
  index : Nat
deriving DecidableEq, Repr, Inhabited

instance : Ranked TokenId := ⟨TokenId.index⟩

/-- Identity of one FROM or JOIN source; the name it is written under is chosen on rendering. -/
structure Alias where
  index : Nat
deriving DecidableEq, Repr, Inhabited

instance : Ranked Alias := ⟨Alias.index⟩

/-- The next number of each kind that has not been handed out. -/
structure Supply where
  tokens : Nat := 0
  aliases : Nat := 0
  writers : Nat := 0
deriving DecidableEq, Repr, Inhabited

abbrev Minting := StateM Supply

namespace Supply

def takeToken (s : Supply) : TokenId × Supply := (⟨s.tokens⟩, { s with tokens := s.tokens + 1 })

def takeAlias (s : Supply) : Alias × Supply := (⟨s.aliases⟩, { s with aliases := s.aliases + 1 })

def takeWriter (s : Supply) : Nat × Supply := (s.writers, { s with writers := s.writers + 1 })

end Supply

def TokenId.mint : Minting TokenId := modifyGet Supply.takeToken

def Alias.mint : Minting Alias := modifyGet Supply.takeAlias

end QueryViews
