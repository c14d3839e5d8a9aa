import CookbookModel.Board.Cli.Commands
import Mathlib.Data.List.TakeWhile

namespace Board.Cli

open GoString

theorem upperHex_mod {n : Nat} : upperHex (n % 16) = upperHex n := by
  simp [upperHex]

theorem unhex_upperHex {n : Nat} (h : n < 16) : unhex (upperHex n) = some n := by
  have hAll : ∀ n < 16, unhex (upperHex n) = some n := by decide
  exact hAll n h

theorem pathUnescape_cons {b : UInt8} {s : GoString} (h : b ≠ 0x25) :
    pathUnescape (b :: s) = (pathUnescape s).map (b :: ·) := by
  rw [pathUnescape]
  · cases pathUnescape s <;> rfl
  · exact fun _ _ _ he _ => h he
  · exact h

theorem pathUnescape_percent {b : UInt8} {s : GoString} :
    pathUnescape (0x25 :: upperHex (b.toNat / 16) :: upperHex b.toNat :: s) =
      (pathUnescape s).map (b :: ·) := by
  have hb := b.toNat_lt
  have hByte : UInt8.ofNat (b.toNat / 16 * 16 + b.toNat % 16) = b := by
    rw [Nat.div_add_mod', UInt8.ofNat_toNat]
  rw [pathUnescape, unhex_upperHex (by omega), ←upperHex_mod, unhex_upperHex (by omega)]
  cases pathUnescape s
  case none      => rfl
  case some rest => exact congrArg (fun b => some (b :: rest)) hByte

theorem pathUnescape_pathEscape (s : GoString) : pathUnescape (pathEscape s) = some s := by
  induction s
  case nil => rfl
  case cons b s hi =>
    rw [pathEscape, List.flatMap_cons]
    split
    case isTrue h  =>
      rw [List.singleton_append, pathUnescape_cons (by rintro rfl; contradiction)]
      exact hi ▸ rfl
    case isFalse h => exact pathUnescape_percent.trans (hi ▸ rfl)

theorem mem_pathEscape {s : GoString} {b : UInt8} (h : b ∈ pathEscape s) :
    unreserved b ∨ b = 0x25 := by
  have hHex (n : Nat) : unreserved (upperHex n) := by
    have hAll : ∀ n < 16, unreserved (upperHex n) = true := by decide
    exact upperHex_mod ▸ hAll (n % 16) (Nat.mod_lt n (by omega))
  have ⟨b', _, h⟩ := List.mem_flatMap.mp h
  split at h
  case isTrue hb => exact .inl (List.mem_singleton.mp h ▸ hb)
  case isFalse   =>
    simp only [List.mem_cons, List.not_mem_nil, or_false] at h
    rcases h with rfl | rfl | rfl
    · exact .inr rfl
    · exact .inl (hHex _)
    · exact .inl (hHex _)

-- No byte that ends a segment, a path or a query stands in an escaped segment.
theorem not_mem_pathEscape {s : GoString} {b : UInt8} (h : b ∈ [0x2F, 0x3F, 0x23]) :
    b ∉ pathEscape s := by
  intro hm
  have hb := mem_pathEscape hm
  simp only [List.mem_cons, List.not_mem_nil, or_false] at h
  rcases h with rfl | rfl | rfl <;> revert hb <;> decide

theorem pathEscape_ne_nil {s : GoString} (h : s ≠ []) : pathEscape s ≠ [] := by
  intro he
  have hs := pathUnescape_pathEscape s
  rw [he] at hs
  exact h (Option.some.inj hs).symm

-- The path of segments
def pathOf (segments : List GoString) : GoString :=
  0x2F :: [0x2F].intercalate (segments.map pathEscape)

theorem dropWhile_slash {s : GoString} (h : s.head? ≠ some 0x2F) :
    s.dropWhile (· ∈ ofString "/") = s := by
  cases s
  case nil      => rfl
  case cons b s =>
    have hb : b ∉ ofString "/" := fun hm => h (congrArg some (List.mem_singleton.mp hm))
    rw [List.dropWhile_cons_of_neg (by simpa using hb)]

theorem trim_slash {s : GoString} (hHead : s.head? ≠ some 0x2F) (hLast : s.getLast? ≠ some 0x2F) :
    trim (0x2F :: s) "/" = s := by
  have hDrop : (0x2F :: s).dropWhile (· ∈ ofString "/") = s.dropWhile (· ∈ ofString "/") := rfl
  rw [trim, hDrop, dropWhile_slash hHead, dropWhile_slash (by rwa [List.head?_reverse]),
    List.reverse_reverse]

theorem intercalate_ends {segments : List GoString} (hne : segments ≠ [])
    (h : ∀ s ∈ segments, s ≠ [] ∧ (0x2F : UInt8) ∉ s) :
    [0x2F].intercalate segments ≠ [] ∧ ([0x2F].intercalate segments).head? ≠ some 0x2F ∧
    ([0x2F].intercalate segments).getLast? ≠ some 0x2F := by
  induction segments
  case nil => contradiction
  case cons s segments hi =>
    have ⟨⟨hs, hSlash⟩, h⟩ := List.forall_mem_cons.mp h
    have hHead : s.head? ≠ some 0x2F := fun he => hSlash (List.mem_of_head? he)
    cases segments
    case nil =>
      rw [List.intercalate_singleton]
      exact ⟨hs, hHead, fun he => hSlash (List.mem_of_getLast? he)⟩
    case cons s' segments =>
      have ⟨hRest, _, hLast⟩ := hi (List.cons_ne_nil _ _) h
      rw [List.intercalate_cons_cons, List.append_assoc]
      refine ⟨by simp [hs], ?_, ?_⟩
      · rwa [List.head?_append_of_ne_nil _ hs]
      · rwa [List.getLast?_append_of_ne_nil _ (by simp), List.getLast?_append_of_ne_nil _ hRest]

theorem escapedSegments_pathOf {segments : List GoString} (hne : segments ≠ [])
    (h : ∀ s ∈ segments, s ≠ []) : Http.escapedSegments (pathOf segments) = some segments := by
  have hSlash : ∀ s ∈ segments.map pathEscape, (0x2F : UInt8) ∉ s :=
    List.forall_mem_map.mpr fun _ _ => not_mem_pathEscape (by simp)
  have hEnds : ∀ s ∈ segments.map pathEscape, s ≠ [] ∧ (0x2F : UInt8) ∉ s :=
    List.forall_mem_map.mpr fun s hs =>
      ⟨pathEscape_ne_nil (h s hs), hSlash _ (List.mem_map_of_mem hs)⟩
  have hMap : segments.map pathEscape ≠ [] := by simpa using hne
  have ⟨hNonempty, hHead, hLast⟩ := intercalate_ends hMap hEnds
  simp only [Http.escapedSegments, pathOf, trim_slash hHead hLast, hNonempty, if_false]
  rw [split, List.splitOn_intercalate _ hSlash hMap]
  clear hne hSlash hEnds hMap hNonempty hHead hLast h
  induction segments
  case nil               => rfl
  case cons s segments hi =>
    rw [List.map_cons, List.mapM_cons, pathUnescape_pathEscape, hi]
    rfl

theorem urlPath_append {s query : GoString} (h : (0x23 : UInt8) ∉ s ∧ (0x3F : UInt8) ∉ s) :
    urlPath s = s ∧ urlPath (s ++ 0x3F :: query) = s := by
  have hHash : ∀ b ∈ s, decide (b ≠ 0x23) = true := fun b hb => by
    simpa using fun he : b = 0x23 => h.left (he ▸ hb)
  have hMark : ∀ b ∈ s, decide (b ≠ 0x3F) = true := fun b hb => by
    simpa using fun he : b = 0x3F => h.right (he ▸ hb)
  constructor
  · rw [urlPath, List.takeWhile_eq_self_iff.mpr hHash, List.takeWhile_eq_self_iff.mpr hMark]
  · rw [urlPath, List.takeWhile_append_of_pos hHash, List.takeWhile_cons_of_pos (by decide),
      List.takeWhile_append_of_pos hMark, List.takeWhile_cons_of_neg (by decide), List.append_nil]

theorem pathOf_singleton {s : GoString} : pathOf [s] = 0x2F :: pathEscape s := by
  simp [pathOf]

theorem pathOf_cons {s s' : GoString} {segments : List GoString} :
    pathOf (s :: s' :: segments) = 0x2F :: (pathEscape s ++ pathOf (s' :: segments)) := by
  simp [pathOf, List.intercalate_cons_cons]

theorem withQuery_cases (path : GoString) (query : List (GoString × GoString)) :
    withQuery path query = path ∨ ∃ rest, withQuery path query = path ++ 0x3F :: rest := by
  unfold withQuery
  split
  case isTrue  => exact .inl rfl
  case isFalse => exact .inr ⟨encodeQuery query, List.append_assoc ..⟩

theorem not_mem_pathOf {segments : List GoString} {b : UInt8} (h : b ∈ [0x3F, 0x23]) :
    b ∉ pathOf segments := by
  have hSlash : b ≠ 0x2F := by
    rintro rfl
    contradiction
  have hEscape (s : GoString) : b ∉ pathEscape s := not_mem_pathEscape (List.mem_cons_of_mem _ h)
  induction segments
  case nil                => simpa [pathOf] using hSlash
  case cons s segments hi =>
    cases segments
    case nil              => simpa [pathOf_singleton] using ⟨hSlash, hEscape s⟩
    case cons s' segments => simpa [pathOf_cons] using ⟨hSlash, hEscape s, hi⟩

-- The path under a room
theorem pathOf_room {roomID : GoString} {leaf : List GoString} :
    pathOf ("v1" :: "rooms" :: roomID :: leaf) =
      ofString "/v1/rooms/" ++ pathEscape roomID ++ if leaf = [] then [] else pathOf leaf := by
  have hStart : ofString "/v1/rooms/" =
      0x2F :: (pathEscape "v1" ++ 0x2F :: (pathEscape "rooms" ++ [0x2F])) := by decide
  rw [pathOf_cons, pathOf_cons, hStart]
  cases leaf
  case nil  => simp [pathOf_singleton]
  case cons => simp [pathOf_cons]

theorem pathOf_allowlist {agent : GoString} :
    pathOf ["allowlist", agent] = ofString "/allowlist/" ++ pathEscape agent := by
  have hStart : ofString "/allowlist/" = 0x2F :: (pathEscape "allowlist" ++ [0x2F]) := by decide
  rw [pathOf_cons, pathOf_singleton, hStart, List.cons_append, List.append_assoc]
  rfl

namespace Command

variable {c c' : Command} {token token' : GoString}

-- What a request names is the path of its segments, perhaps with a query.
theorem request_path : (c.request token).path = pathOf c.segments ∨
    ∃ query, (c.request token).path = pathOf c.segments ++ 0x3F :: query := by
  have hMessages : pathOf ["messages"] = ofString "/messages" := by decide
  have hNickname : pathOf ["nickname"] = ofString "/nickname" := by decide
  have hAllowlist : pathOf ["allowlist"] = ofString "/allowlist" := by decide
  rw [segments, pathOf_room]
  cases c
  case roomGet room       => exact .inl (List.append_nil _).symm
  case post room _ _ _    => exact .inl (hMessages ▸ rfl)
  case nicknameSet room _ => exact .inl (hNickname ▸ rfl)
  case allowlistList room => exact .inl (hAllowlist ▸ rfl)
  case allowlistGrant room agent _ =>
    exact .inl ((List.append_assoc ..).trans (congrArg _ pathOf_allowlist.symm))
  case allowlistRevoke room agent =>
    exact .inl ((List.append_assoc ..).trans (congrArg _ pathOf_allowlist.symm))
  case read room limit cursor after wait watch =>
    have h := withQuery_cases (ofString "/v1/rooms/" ++ pathEscape room ++ pathOf ["messages"])
    rw [hMessages] at h
    exact hMessages ▸ h _

theorem urlPath_request : urlPath (c.request token).path = pathOf c.segments := by
  have hPath (query : GoString) := @urlPath_append (pathOf c.segments) query
    ⟨not_mem_pathOf (by simp), not_mem_pathOf (by simp)⟩
  cases @request_path c token
  case inl h => exact h ▸ (hPath []).left
  case inr h =>
    have ⟨query, h⟩ := h
    exact h ▸ (hPath query).right

-- The command has a room and, where it names an agent, an agent.
def Named (c : Command) : Prop :=
  c.roomID ≠ [] ∧ c.agent ≠ some []

theorem segments_ne_nil (h : c.Named) : ∀ s ∈ c.segments, s ≠ [] := by
  have hLeaf : ∀ s ∈ c.leaf, s ≠ [] := by cases c <;> simp [leaf] <;> decide
  have hAgent : ∀ s ∈ c.agent.toList, s ≠ [] := fun s hs he =>
    h.right (he ▸ Option.mem_toList.mp hs)
  simp only [segments, List.forall_mem_cons, List.forall_mem_append]
  exact ⟨by decide, by decide, h.left, hLeaf, hAgent⟩

theorem agent_eq : c.agent = c.segments[4]? := by
  cases c <;> rfl

theorem segments_inj (h : c.segments = c'.segments) :
    c.roomID = c'.roomID ∧ c.agent = c'.agent := by
  constructor
  · exact Option.some.inj (congrArg (·[2]?) h)
  · rw [agent_eq, agent_eq, h]

theorem route_segments [Platform] [CursorJson] [Http.BodyJson] {identity : Identity}
    {r : Http.Request} (hMethod : r.method = (c.request token).method)
    (hPath : Http.escapedSegments r.escapedPath = some c.segments) :
    Http.route identity r = c.handler identity r := by
  rw [Http.route, hPath]
  cases c <;>
    simp [segments, Command.roomID, leaf, agent, Http.routeRoom, hMethod, request, handler,
      Cli.roomGet, Cli.post, Cli.read, Cli.nicknameSet, Cli.allowlistList, Cli.allowlistGrant,
      Cli.allowlistRevoke, Cli.request]

-- No command asks for the health of the server, which is answered before the routes.
theorem not_healthz : pathUnescape (urlPath (c.request token).path) ≠ some (ofString "/healthz") := by
  have hStart : pathEscape "v1" = [0x76, 0x31] := by decide
  have hHealthz : ofString "/healthz" = 0x2F :: 0x68 :: ofString "ealthz" := by decide
  rw [urlPath_request, segments, pathOf_cons, hStart, List.cons_append,
    pathUnescape_cons (by decide), pathUnescape_cons (by decide), hHealthz]
  intro h
  have ⟨_, hRest, h⟩ := Option.map_eq_some_iff.mp h
  have ⟨_, _, hRest⟩ := Option.map_eq_some_iff.mp hRest
  simp [←hRest] at h

end Command

-- The path that a command builds is split into the segments that it means, whatever bytes the room
-- and the agent are made of, and the server routes it to the handler that it means.
theorem command_paths [Platform] [CursorJson] [Http.BodyJson] {c : Command} {token : GoString}
    (h : c.Named) :
    Http.escapedSegments (urlPath (c.request token).path) = some c.segments ∧
    (∀ identity r, r.method = (c.request token).method →
      r.escapedPath = urlPath (c.request token).path →
        Http.route identity r = c.handler identity r) ∧
    pathUnescape (urlPath (c.request token).path) ≠ some (ofString "/healthz") ∧
    ∀ (c' : Command) token', c'.Named →
      urlPath (c'.request token').path = urlPath (c.request token).path →
        c'.roomID = c.roomID ∧ c'.agent = c.agent := by
  have hSegments {c : Command} {token : GoString} (h : c.Named) :
      Http.escapedSegments (urlPath (c.request token).path) = some c.segments :=
    Command.urlPath_request ▸ escapedSegments_pathOf (List.cons_ne_nil _ _) (c.segments_ne_nil h)
  refine ⟨hSegments h, fun _ _ hMethod hPath => ?_, ?_, fun c' token' h' hPath => ?_⟩
  · exact Command.route_segments hMethod (hPath ▸ hSegments h)
  · exact Command.not_healthz
  · have hSame := (hSegments h').symm.trans (hPath ▸ hSegments h)
    exact Command.segments_inj (Option.some.inj hSame)

attribute [local instance] asciiPlatform plainCursors Http.plainBodies

theorem command_paths_grant :
    Http.escapedSegments (urlPath (allowlistGrant "t" "../a%2Fb?c#d" "/ %" "reader").path) =
      some [ofString "v1", "rooms", "../a%2Fb?c#d", "allowlist", "/ %"] :=
  (@command_paths _ _ _ (.allowlistGrant "../a%2Fb?c#d" "/ %" "reader") "t"
    ⟨by decide, by decide⟩).left

end Board.Cli
