import CookbookModel.Library.JsString

namespace Workers

-- The table `seen` of one signer domain: when the record of a nonce expires, in milliseconds.
abbrev NonceStore := GoMap JsString Int

def NonceStore.claim (seen : NonceStore) (nonce : JsString) (expiresAtMs now : Int) :
    Bool × NonceStore :=
  let seen := seen.filter fun _ expires => ¬expires < now
  if nonce ∈ seen.keys then (false, seen) else (true, seen.set nonce expiresAtMs)

namespace NonceStore

variable {seen : NonceStore} {nonce k : JsString} {expiresAtMs now t : Int}

-- A claim removes no record before it has expired.
theorem claim_keeps (h : seen[k]? = some t) (ht : now ≤ t) :
    (seen.claim nonce expiresAtMs now).2[k]? = some t := by
  have hf : (seen.filter fun _ expires => ¬expires < now)[k]? = some t := by
    simp [GoMap.get_filter, h, ht]
  simp only [claim]
  split
  case isTrue     => exact hf
  case isFalse hn => rw [GoMap.get_set_ne fun (he : k = nonce) => hn <| he ▸ GoMap.mem_keys hf, hf]

theorem claim_free (h : (seen.claim nonce expiresAtMs now).1 = true) (hs : seen[nonce]? = some t) :
    t < now := by
  by_contra hn
  have hf : (seen.filter fun _ expires => ¬expires < now)[nonce]? = some t := by
    simp [GoMap.get_filter, hs, Int.not_lt.mp hn]
  simp only [claim, GoMap.mem_keys hf, reduceIte] at h
  cases h

theorem claim_taken (h : (seen.claim nonce expiresAtMs now).1 = true) :
    (seen.claim nonce expiresAtMs now).2[nonce]? = some expiresAtMs := by
  simp only [claim] at h ⊢
  split at h
  case isTrue     => cases h
  case isFalse hn =>
    rw [if_neg hn]
    exact GoMap.get_set_self

end NonceStore
end Workers
