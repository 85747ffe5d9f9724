import Leasehold.Store.Basic

/-!
# Leases in the store

The ledger of the store keeps deadlines in whole milliseconds. Both the present and a deadline
are rounded down before they are compared, so a lease that is taken within a millisecond ends
with the millisecond its deadline lies in.

* `Leasehold.Store.takeLease` – takes a key, unless its lease is live;
* `Leasehold.Store.renewLease` – moves the deadline of a live lease, for its holder only;
* `Leasehold.Store.cancelLease` – removes a lease, for its holder only;
* `Leasehold.Store.leaseHolder?` – who holds a key now, and until when;
* `Leasehold.Store.purgeLeases` – removes the leases that are not live.
-/

namespace Leasehold.Store

/-- Writes another ledger, if there is one, and says whether there was. -/
def replaceLeases (s : Store) : Option (Ledger Int) → Bool × Store
  | some leases => (true, { s with leases })
  | none => (false, s)

/-- **Takes a key**, unless its lease is live, and says whether it was taken. -/
def takeLease (s : Store) (key : String) (token : Token) (now deadline : Instant) : Bool × Store :=
  s.replaceLeases (s.leases.take? key token now.millis deadline.millis)

/-- **Moves the deadline** of a live lease, and says whether the token was its holder's. -/
def renewLease (s : Store) (key : String) (token : Token) (now deadline : Instant) : Bool × Store :=
  s.replaceLeases (s.leases.renew? key token now.millis deadline.millis)

/-- **Removes a lease**, live or not, and says whether the token was its holder's. -/
def cancelLease (s : Store) (key : String) (token : Token) : Bool × Store :=
  s.replaceLeases (s.leases.cancel? key token)

/-- **Who holds a key now**, and until when. -/
def leaseHolder? (s : Store) (key : String) (now : Instant) :
    Except Fault (Option (Token × Instant)) :=
  match s.leases.live? key now.millis with
  | none => .ok none
  | some h => (instant h.expiry).map fun t => some (h.token, t)

/-- **Removes the leases that are not live**, and says how many they were. -/
def purgeLeases (s : Store) (now : Instant) : Nat × Store :=
  let (n, leases) := s.leases.purge now.millis
  (n, { s with leases })

end Leasehold.Store
