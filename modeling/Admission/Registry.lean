import Admission.Error
import Admission.Key

/-!
# Client registry

Clients are held in the order of their registration, one for each address. A second registration
of an address is refused and changes nothing, so a client's key is never replaced.
-/

namespace Admission

/-- A client that may send transactions, and the key that its signatures are checked against. -/
structure Client where
  id : UInt32
  address : Address
  key : VerificationKey
deriving DecidableEq

/-- The client of a key, at the address that the key owns. -/
def Client.ofKey (id : UInt32) (key : VerificationKey) : Client :=
  ⟨id, key.address, key⟩

/-- The registered clients. -/
structure Registry where
  clients : List Client
  nodup : (clients.map Client.address).Nodup

namespace Registry

/-- The registry without clients. -/
def empty : Registry := ⟨[], by simp⟩

/-- The client at an address. -/
def find? (r : Registry) (address : Address) : Option Client :=
  r.clients.find? fun c => c.address = address

/-- The number of clients. -/
def size (r : Registry) : Nat :=
  r.clients.length

/-- Whether there are no clients. -/
def isEmpty (r : Registry) : Bool :=
  r.clients.isEmpty

/-- The registry with one more client, if its address is free. -/
def register (r : Registry) (c : Client) : Except ConfigFault Registry :=
  if h : c.address ∈ r.clients.map Client.address then .error (.repeatedAddress c.address)
  else .ok ⟨r.clients ++ [c], by
    rw [List.map_append, List.nodup_append]
    refine ⟨r.nodup, by simp, ?_⟩
    intro a ha b hb
    simp only [List.map_cons, List.map_nil, List.mem_singleton] at hb
    subst hb
    exact fun e => h (e ▸ ha)⟩

/-! ## What a registration changes -/

/-- A client is found exactly if its address is taken. -/
theorem isSome_find? (r : Registry) (address : Address) :
    (r.find? address).isSome = true ↔ address ∈ r.clients.map Client.address := by
  simp [find?, List.find?_isSome]

/-- A client that is found is held at its own address. -/
theorem address_of_find? {r : Registry} {address : Address} {c : Client}
    (found : r.find? address = some c) : c.address = address := by
  simpa using List.find?_some found

/-- After a registration the new client is found at its address and all others as before. -/
theorem find?_register {r r' : Registry} {c : Client} (done : r.register c = .ok r')
    (address : Address) :
    r'.find? address = if c.address = address then some c else r.find? address := by
  unfold register at done
  split at done
  · cases done
  · rename_i free
    cases done
    simp only [find?, List.find?_append]
    -- The new client stands last, so it is found only where nobody stood before.
    by_cases here : c.address = address
    · subst here
      have absent : r.clients.find? (fun d => d.address = c.address) = none := by
        rw [List.find?_eq_none]
        intro d hd
        simp only [decide_eq_true_eq]
        exact fun e => free (List.mem_map.mpr ⟨d, hd, e⟩)
      simp [absent]
    · simp [here]

end Registry

end Admission
