/-!
# Ledgers of leases

A ledger says for each key who took it and until when. Deadlines are of any ordered kind: the
ledger of one process counts the time since its clock was started, the shared one the
milliseconds of the calendar. A lease is **live** as long as its deadline lies ahead, and a key
whose lease is not live can be taken over.

* `Leasehold.Ledger.take?` – takes a key, unless its lease is live;
* `Leasehold.Ledger.renew?` – moves the deadline of a live lease, for its holder only;
* `Leasehold.Ledger.cancel?` – removes a lease, live or not, for its holder only;
* `Leasehold.Ledger.live?` – who holds a key now;
* `Leasehold.Ledger.purge` – removes the leases that are not live.

Each operation leaves all other keys alone.
-/

namespace Leasehold

/-- **A token** proves that its owner took a lease. -/
inductive Token where
  /-- A token issued with a lease; no two leases get the same. -/
  | issued (serial : Nat)
  /-- A token that somebody made up. -/
  | named (name : String)
deriving DecidableEq

/-- **A lease**: who took it, and until when. -/
structure Hold (D : Type) where
  /-- The token of the holder. -/
  token : Token
  /-- The deadline. -/
  expiry : D
deriving DecidableEq

/-- **A ledger**: the leases by their keys, the oldest key first. -/
abbrev Ledger (D : Type) := List (String × Hold D)

namespace Ledger

variable {D : Type}

/-- The lease of a key, live or not. -/
def find? (key : String) (l : Ledger D) : Option (Hold D) :=
  (List.find? (fun e => e.1 = key) l).map (·.2)

/-- Writes the lease of a key. -/
def put (key : String) (h : Hold D) (l : Ledger D) : Ledger D :=
  if (l.find? key).isSome then l.map fun e => if e.1 = key then (key, h) else e
  else l ++ [(key, h)]

/-- Removes the lease of a key. -/
def drop (key : String) (l : Ledger D) : Ledger D := l.filter fun e => e.1 ≠ key

variable [LT D] [DecidableLT D]

/-- **Who holds a key now**: its lease, if it is live. -/
def live? (key : String) (now : D) (l : Ledger D) : Option (Hold D) :=
  (l.find? key).filter fun h => now < h.expiry

/-- **Takes a key**, unless its lease is live. -/
def take? (key : String) (token : Token) (now expiry : D) (l : Ledger D) : Option (Ledger D) :=
  if (l.live? key now).isSome then none else some (l.put key ⟨token, expiry⟩)

/-- **Moves the deadline** of a live lease, if the token is its holder's. -/
def renew? (key : String) (token : Token) (now expiry : D) (l : Ledger D) : Option (Ledger D) :=
  match l.live? key now with
  | some h => if h.token = token then some (l.put key ⟨token, expiry⟩) else none
  | none => none

omit [LT D] [DecidableLT D] in
/-- **Removes a lease**, live or not, if the token is its holder's. -/
def cancel? (key : String) (token : Token) (l : Ledger D) : Option (Ledger D) :=
  match l.find? key with
  | some h => if h.token = token then some (l.drop key) else none
  | none => none

/-- **Removes the leases that are not live**, and says how many they were. -/
def purge (now : D) (l : Ledger D) : Nat × Ledger D :=
  ((l.filter fun e => ¬ now < e.2.expiry).length, l.filter fun e => now < e.2.expiry)

end Ledger

end Leasehold
