import CookbookModel.Board.Memory.Theorems.Membership

namespace Board

open GoString

-- The key of the idempotency entry that belongs to a message.
def Message.entryKey (msg : Message) : GoString :=
  msg.author ++ "#" ++ msg.idempotencyKey

section

variable [Platform] {r r' : RoomRecord} {s s' : MemoryStore} {key : GoString}
  {actor : Identity} {input : PostInput} {maxRooms maxMembers : Int}

-- The idempotency entries of a room belong to its messages one by one.
structure RoomRecord.Idempotent (r : RoomRecord) : Prop where
  canonical : ∀ {msg}, msg ∈ r.messages → canonicalDNSName msg.author = .ok msg.author
  distinct  : (r.messages.map (·.messageID)).Nodup
  recorded  : ∀ {msg}, msg ∈ r.messages →
    r.idempotency[msg.entryKey]? = some ⟨msg.requestHash, msg.messageID⟩
  found     : ∀ {k : GoString} {idem : IdempotencyRecord}, r.idempotency[k]? = some idem →
    ∃ msg ∈ r.messages, msg.entryKey = k

namespace RoomRecord.Idempotent

theorem message_inj (h : r.Idempotent) (hm : msg ∈ r.messages) (hm' : msg' ∈ r.messages)
    (he : msg.messageID = msg'.messageID) : msg = msg' :=
  List.inj_on_of_nodup_map h.distinct hm hm' he

theorem entryKey_injOn (h : r.Idempotent) (hm : msg ∈ r.messages) (hm' : msg' ∈ r.messages)
    (he : msg.entryKey = msg'.entryKey) : msg = msg' := by
  have hr := h.recorded hm
  rw [he, h.recorded hm'] at hr
  exact h.message_inj hm hm' <| (congrArg IdempotencyRecord.messageID (Option.some_inj.mp hr)).symm

theorem bijOn (h : r.Idempotent) :
    Set.BijOn Message.entryKey {msg | msg ∈ r.messages} r.idempotency.keys := by
  refine ⟨fun msg hm => GoMap.mem_keys (h.recorded hm), fun _ hm _ hm' => h.entryKey_injOn hm hm',
    fun k hk => ?_⟩
  have ⟨idem, hi⟩ := GoMap.mem_keys_iff_get.mp hk
  have ⟨msg, hm, he⟩ := h.found hi
  exact ⟨msg, hm, he⟩

theorem find (h : r.Idempotent) (hm : msg ∈ r.messages) :
    r.messages.find? (·.messageID = msg.messageID) = some msg := by
  cases hf : r.messages.find? (·.messageID = msg.messageID)
  case none =>
    simp only [List.find?_eq_none, decide_eq_true_eq] at hf
    exact absurd rfl <| hf msg hm
  case some msg' =>
    have he := List.find?_some hf
    simp only [decide_eq_true_eq] at he
    rw [h.message_inj (List.mem_of_find?_eq_some hf) hm he]

-- The entry under an agent's key, whatever the key contains, belongs to a message of this agent.
theorem owned {a k : GoString} (h : r.Idempotent) (ha : canonicalDNSName a = .ok a)
    (hi : r.idempotency[a ++ "#" ++ k]? = some idem) :
    ∃ msg ∈ r.messages, msg.author = a ∧ msg.idempotencyKey = k ∧
      idem = ⟨msg.requestHash, msg.messageID⟩ := by
  have ⟨msg, hm, he⟩ := h.found hi
  have ⟨hAuthor, hKey⟩ := entryKey_inj (canonicalDNSName_no_hash (h.canonical hm))
    (canonicalDNSName_no_hash ha) he
  have hr := h.recorded hm
  rw [he, hi] at hr
  exact ⟨msg, hm, hAuthor, hKey, Option.some_inj.mp hr⟩

omit [Platform] in
theorem mem_post {k : GoString} :
    msg' ∈ (r.post k msg).messages ↔ msg' = msg ∨ msg' ∈ r.messages := by
  simp only [RoomRecord.post, sortMessages, (List.perm_insertionSort _ _).mem_iff,
    List.mem_append, List.mem_singleton]
  exact or_comm

theorem post (h : r.Idempotent) (hAuthor : canonicalDNSName msg.author = .ok msg.author)
    (hFresh : ∀ msg' ∈ r.messages, msg'.messageID ≠ msg.messageID)
    (hAbsent : r.idempotency[msg.entryKey]? = none) : (r.post msg.entryKey msg).Idempotent where
  canonical hm := by
    cases mem_post.mp hm
    case inl he => exact he ▸ hAuthor
    case inr hm => exact h.canonical hm
  distinct := by
    have hp := List.perm_insertionSort (·.messageID ≤ ·.messageID) (r.messages ++ [msg])
    rw [RoomRecord.post, sortMessages, (hp.map _).nodup_iff, List.map_append, List.nodup_append]
    refine ⟨h.distinct, List.nodup_singleton _, ?_⟩
    intro a ha b hb
    have ⟨msg', hm', he⟩ := List.mem_map.mp ha
    simp only [List.map_cons, List.map_nil, List.mem_singleton] at hb
    rw [hb, ←he]
    exact hFresh msg' hm'
  recorded {msg'} hm := by
    rw [RoomRecord.post, GoMap.get_set]
    split
    case isTrue he =>
      cases mem_post.mp hm
      case inl he => rw [he]
      case inr hm =>
        rw [←he, h.recorded hm] at hAbsent
        contradiction
    case isFalse he =>
      have hm := (mem_post.mp hm).resolve_left fun e => he (e ▸ rfl)
      exact h.recorded hm
  found {k idem} hk := by
    rw [RoomRecord.post, GoMap.get_set] at hk
    split at hk
    case isTrue he => exact ⟨msg, mem_post.mpr <| .inl rfl, he.symm⟩
    case isFalse =>
      have ⟨msg', hm', he⟩ := h.found hk
      exact ⟨msg', mem_post.mpr <| .inr hm', he⟩

end RoomRecord.Idempotent
namespace Memory

abbrev Calls := List (Completed Call Stamp (Except Err Reply))

variable {h h' : Calls}

-- The ids that posts have taken from `ulid.Make`.
def minted (h : Calls) : List GoString :=
  h.filterMap fun c =>
    match c.result with
    | .ok (.posted result) => if result.idempotentReplay then none else some c.stamp.ulid
    | _                    => none

-- The actors of all calls are canonical.
def Authentic (h : Calls) : Prop :=
  ∀ c ∈ h, ∀ actor, c.call.actor? = some actor → canonicalDNSName actor.agent = .ok actor.agent

-- A post that has succeeded, with the message it has returned.
structure Posted (h : Calls) (actor : Identity) (input : PostInput) (msg : Message) : Prop where
  mem : ∃ w replay, ⟨.postMessage actor input, w, .ok (.posted ⟨msg, replay⟩)⟩ ∈ h

omit [Platform] in
theorem Posted.append (hp : Posted h actor input msg) : Posted (h ++ h') actor input msg :=
  have ⟨w, replay, hm⟩ := hp.mem
  ⟨w, replay, List.mem_append_left _ hm⟩

-- What the history says about the messages of the rooms.
structure Logged (h : Calls) (s : MemoryStore) : Prop where
  idempotent : ∀ {key : GoString} {r : RoomRecord}, s.rooms[key]? = some r → r.Idempotent
  ids        : ∀ {key : GoString} {r : RoomRecord} {msg}, s.rooms[key]? = some r →
    msg ∈ r.messages → ∃ ulid ∈ minted h, msg.messageID = "msg_" ++ ulid
  posted     : ∀ {key : GoString} {r : RoomRecord} {msg}, s.rooms[key]? = some r →
    msg ∈ r.messages → ∃ actor input, Posted h actor input msg ∧
      input.roomID = r.room.roomID ∧ actor.agent = msg.author ∧
      input.idempotencyKey = msg.idempotencyKey
  stored     : ∀ {actor input msg}, Posted h actor input msg →
    ∃ key r, Located s input.roomID key r ∧ msg ∈ r.messages ∧ msg.author = actor.agent ∧
      msg.idempotencyKey = input.idempotencyKey ∧ msg.requestHash = input.requestHash

theorem Change.messages_mono (hc : Change w limit r c reply r') (hm : msg ∈ r.messages) :
    msg ∈ r'.messages := by
  cases hc
  case post => exact RoomRecord.Idempotent.mem_post.mpr <| .inr hm
  all_goals exact hm

theorem Change.new_message (hc : Change w limit r c reply r') (hm : msg ∈ r'.messages) :
    msg ∈ r.messages ∨ ∃ actor input, c = .postMessage actor input ∧
      reply = .posted ⟨msg, false⟩ ∧ msg = r.newMessage actor.agent input w.now w.ulid := by
  cases hc
  case post actor input _ _ hKey hActive hActor hAbsent hNew =>
    cases RoomRecord.Idempotent.mem_post.mp hm
    case inl he => exact .inr ⟨actor, input, rfl, he ▸ rfl, he ▸ hNew⟩
    case inr hm => exact .inl hm
  all_goals exact .inl hm

theorem Change.idempotent (hc : Change w limit r c reply r') (hr : r.Idempotent)
    (hAuth : ∀ actor, c.actor? = some actor → canonicalDNSName actor.agent = .ok actor.agent)
    (hFresh : ∀ {msg}, reply = .posted ⟨msg, false⟩ →
      ∀ msg' ∈ r.messages, msg'.messageID ≠ "msg_" ++ w.ulid) : r'.Idempotent := by
  have hSame (hm : r'.messages = r.messages) (hi : r'.idempotency = r.idempotency) :
      r'.Idempotent := by
    constructor <;> simp only [hm, hi]
    exacts [hr.canonical, hr.distinct, hr.recorded, hr.found]
  cases hc
  case post hKey hActive hActor hAbsent hNew =>
    subst hNew
    exact hr.post (hAuth _ rfl) (hFresh rfl) hAbsent
  all_goals exact hSame rfl rfl

-- A post returns a message of the room that is the actor's under the key and hash it has sent.
theorem Change.posted (hc : Change w limit r c reply r') (hr : r.Idempotent)
    (hAuth : ∀ actor, c.actor? = some actor → canonicalDNSName actor.agent = .ok actor.agent)
    (hp : c = .postMessage actor input) (hReply : reply = .posted ⟨msg, replay⟩) :
    msg ∈ r'.messages ∧ msg.author = actor.agent ∧ msg.idempotencyKey = input.idempotencyKey ∧
      msg.requestHash = input.requestHash := by
  cases hc <;> try contradiction
  case postReplay hKey hActive hActor hRecorded hHash hFound =>
    cases hp
    cases hReply
    have ⟨msg', hm', hAuthor, hKey', he⟩ := hr.owned (hAuth _ rfl) hRecorded
    rw [he, hr.find hm'] at hFound
    cases hFound
    subst he
    exact ⟨hm', hAuthor, hKey', hHash⟩
  case post hKey hActive hActor hAbsent hNew =>
    cases hp
    cases hReply
    subst hNew
    exact ⟨RoomRecord.Idempotent.mem_post.mpr <| .inl rfl, rfl, rfl, rfl⟩

omit [Platform] in
theorem minted_append : minted (h ++ h') = minted h ++ minted h' :=
  List.filterMap_append

omit [Platform] in
theorem minted_post {x : Completed Call Stamp (Except Err Reply)}
    (hx : x.result = .ok (.posted ⟨msg, false⟩)) : minted [x] = [x.stamp.ulid] := by
  simp [minted, hx]

-- A message id is new if all ids taken from `ulid.Make` are distinct.
theorem Logged.fresh (hl : Logged h s) (hr : s.rooms[key]? = some r)
    (hMinted : (minted (h ++ [⟨c, w, .ok (.posted ⟨msg, false⟩)⟩])).Nodup) :
    ∀ msg' ∈ r.messages, msg'.messageID ≠ "msg_" ++ w.ulid := by
  intro msg' hm he
  have ⟨ulid, hu, he'⟩ := hl.ids hr hm
  rw [minted_append, minted_post rfl] at hMinted
  have hne := List.disjoint_of_nodup_append hMinted hu
  rw [he', List.append_cancel_left_eq] at he
  exact hne <| List.mem_singleton.mpr he

omit [Platform] in
theorem posted_append {x : Completed Call Stamp (Except Err Reply)}
    (hp : Posted (h ++ [x]) actor input msg) : Posted h actor input msg ∨
      ∃ replay, x.call = .postMessage actor input ∧ x.result = .ok (.posted ⟨msg, replay⟩) := by
  have ⟨w, replay, hm⟩ := hp.mem
  cases List.mem_append.mp hm
  case inl hm => exact .inl ⟨w, replay, hm⟩
  case inr hm => exact .inr ⟨replay, by simp [←List.mem_singleton.mp hm]⟩

-- A record is replaced by what a change makes of it.
theorem Logged.change (hl : Logged h s) (hLocated : Located s c.roomID key r)
    (hID : r.room.roomID = c.roomID) (hc : Change w limit r c reply r')
    (hAuth : ∀ actor, c.actor? = some actor → canonicalDNSName actor.agent = .ok actor.agent)
    (hMinted : (minted (h ++ [⟨c, w, .ok reply⟩])).Nodup) :
    Logged (h ++ [⟨c, w, .ok reply⟩]) (s.putRecord key r') where
  idempotent {k r''} hk := by
    rw [MemoryStore.putRecord, GoMap.get_set] at hk
    split at hk
    case isTrue =>
      cases hk
      refine hc.idempotent (hl.idempotent hLocated.byKey) hAuth fun he => ?_
      subst he
      exact hl.fresh hLocated.byKey hMinted
    case isFalse => exact hl.idempotent hk
  ids {k r'' msg} hk hm := by
    have hOld {ulid} (hu : ulid ∈ minted h) : ulid ∈ minted (h ++ [⟨c, w, .ok reply⟩]) :=
      minted_append ▸ List.mem_append_left _ hu
    rw [MemoryStore.putRecord, GoMap.get_set] at hk
    split at hk
    case isTrue =>
      cases hk
      cases hc.new_message hm
      case inl hm =>
        obtain ⟨ulid, hu, he⟩ := hl.ids hLocated.byKey hm
        exact ⟨ulid, hOld hu, he⟩
      case inr hn =>
        obtain ⟨actor, input, _, hReply, he⟩ := hn
        refine ⟨w.ulid, ?_, he ▸ rfl⟩
        rw [minted_append, minted_post (congrArg Except.ok hReply)]
        simp
    case isFalse =>
      obtain ⟨ulid, hu, he⟩ := hl.ids hk hm
      exact ⟨ulid, hOld hu, he⟩
  posted {k r'' msg} hk hm := by
    rw [MemoryStore.putRecord, GoMap.get_set] at hk
    split at hk
    case isTrue =>
      cases hk
      cases hc.new_message hm
      case inl hm =>
        obtain ⟨actor, input, hp, he⟩ := hl.posted hLocated.byKey hm
        exact ⟨actor, input, hp.append, hc.same.roomID ▸ he⟩
      case inr hn =>
        obtain ⟨actor, input, hCall, hReply, he⟩ := hn
        subst hCall hReply
        refine ⟨actor, input, ⟨w, false, by simp⟩, ?_, he ▸ ⟨rfl, rfl⟩⟩
        rw [hc.same.roomID, hID]
        rfl
    case isFalse =>
      obtain ⟨actor, input, hp, he⟩ := hl.posted hk hm
      exact ⟨actor, input, hp.append, he⟩
  stored {actor input msg} hp := by
    cases posted_append hp
    case inl hp =>
      obtain ⟨k, r₀, hLocated₀, hm, he⟩ := hl.stored hp
      by_cases hk : k = key
      case pos =>
        subst hk
        cases hLocated.byKey.symm.trans hLocated₀.byKey
        exact ⟨k, r', ⟨hLocated₀.byID, GoMap.get_set_self⟩, hc.messages_mono hm, he⟩
      case neg =>
        exact ⟨k, r₀, ⟨hLocated₀.byID, (GoMap.get_set_ne hk).trans hLocated₀.byKey⟩, hm, he⟩
    case inr hp =>
      obtain ⟨replay, hCall, hReply⟩ := hp
      dsimp only at hCall hReply
      refine ⟨key, r', ⟨?_, GoMap.get_set_self⟩, ?_⟩
      · rw [hCall] at hLocated
        exact hLocated.byID
      · exact hc.posted (hl.idempotent hLocated.byKey) hAuth hCall (Except.ok.inj hReply)

-- A call that is no successful post is added to the history, and no room has lost a message.
theorem Logged.other (hl : Logged h s) (hx : ∀ result, x.result ≠ .ok (.posted result))
    (hOld : ∀ {key : GoString} {r : RoomRecord}, s'.rooms[key]? = some r →
      s.rooms[key]? = some r ∨ r.messages = [] ∧ r.idempotency = ∅)
    (hLocated : ∀ {roomID key r}, Located s roomID key r → Located s' roomID key r) :
    Logged (h ++ [x]) s' where
  idempotent hr := by
    cases hOld hr
    case inl hr => exact hl.idempotent hr
    case inr he => constructor <;> simp [he]
  ids hr hm := by
    cases hOld hr
    case inl hr =>
      have ⟨ulid, hu, he⟩ := hl.ids hr hm
      exact ⟨ulid, minted_append ▸ List.mem_append_left _ hu, he⟩
    case inr he => simp [he] at hm
  posted hr hm := by
    cases hOld hr
    case inl hr =>
      have ⟨actor, input, hp, he⟩ := hl.posted hr hm
      exact ⟨actor, input, hp.append, he⟩
    case inr he => simp [he] at hm
  stored hp := by
    cases posted_append hp
    case inl hp =>
      have ⟨key, r, hr, hm⟩ := hl.stored hp
      exact ⟨key, r, hLocated hr, hm⟩
    case inr hp =>
      have ⟨_, _, he⟩ := hp
      exact absurd he <| hx _

theorem Logged.call (hl : Logged h s) (hs : s.Sound) (c : Call) (w : Stamp)
    (hAuth : ∀ actor, c.actor? = some actor → canonicalDNSName actor.agent = .ok actor.agent)
    (hMinted : (minted (h ++ [⟨c, w, (exec c w s).1⟩])).Nodup) :
    Logged (h ++ [⟨c, w, (exec c w s).1⟩]) (exec c w s).2 := by
  cases exec_cases c w s
  case inl he =>
    obtain ⟨e, he⟩ := he
    rw [he]
    exact hl.other (by simp) .inl id
  case inr hOk =>
    obtain ⟨reply, s', hs', hStep⟩ := hOk
    rw [hs'] at hMinted ⊢
    clear hs'
    cases hStep
    case create hValid hFresh hQuota hRoom hOwner =>
      refine hl.other (by simp) (fun hr => ?_) fun hLocated => ⟨?_, ?_⟩
      case refine_1 =>
        rw [MemoryStore.addRoom, GoMap.get_set] at hr
        split at hr
        case isTrue  => cases hr; exact .inr ⟨rfl, rfl⟩
        case isFalse => exact .inl hr
      case refine_2 =>
        refine (GoMap.get_set_ne fun e => ?_).trans hLocated.byID
        rw [←e, hLocated.byID] at hFresh
        contradiction
      case refine_3 =>
        refine (GoMap.get_set_ne fun e => ?_).trans hLocated.byKey
        have hn := hs.rooms_fresh hFresh
        rw [←e, hLocated.byKey] at hn
        contradiction
    case change hValid hLocated hChange =>
      obtain ⟨r, hr, hID⟩ := hs.roomKeys hLocated.byID
      cases hLocated.byKey.symm.trans hr
      exact hl.change hLocated hID hChange hAuth hMinted

theorem logged (hh : History exec (.new maxRooms maxMembers) h s) (hAuth : Authentic h)
    (hMinted : (minted h).Nodup) : Logged h s := by
  induction hh
  case init =>
    constructor <;> simp [MemoryStore.new]
    exact fun hp => by simpa using hp.mem
  case call c w hh hi =>
    have hl := hi (fun c hc => hAuth c <| List.mem_append_left _ hc)
      (minted_append ▸ hMinted).of_append_left
    exact hl.call (governed hh).sound c w (hAuth _ <| List.mem_append_right _ List.mem_cons_self) hMinted

-- The agent has posted the message in the room under the key, or has been given it as a replay.
def PostedUnder (h : Calls) (roomID agent idempotencyKey : GoString) (msg : Message) : Prop :=
  ∃ actor input, Posted h actor input msg ∧ input.roomID = roomID ∧ actor.agent = agent ∧
    input.idempotencyKey = idempotencyKey

theorem exec_post_conflict (hr : r.Sound limit) (hLocated : Located s input.roomID key r)
    (hID : input.roomID = r.room.roomID) (hKey : input.idempotencyKey ≠ [])
    (hActor : Permitted r actor.agent input.actorMemberVersion .postMessage m)
    (hRecorded : r.idempotency[actor.agent ++ "#" ++ input.idempotencyKey]? = some idem)
    (hHash : idem.requestHash ≠ input.requestHash) :
    exec (.postMessage actor input) w s = (.error .idempotencyConflict, s) := by
  have hValid := hr.valid
  rw [←hID] at hValid
  simp [exec, atomically, method, postMessage, validated, hValid, hKey, hLocated.run, throwIf, hr.active,
    hActor.run, -List.append_assoc, hRecorded, hHash]

-- An agent that has not yet posted under a key gets its message appended.
theorem post_appends (hl : Logged h s) (hs : s.Sound) (hr : s.rooms[key]? = some r)
    (hID : input.roomID = r.room.roomID) (hKey : input.idempotencyKey ≠ [])
    (hAgent : canonicalDNSName actor.agent = .ok actor.agent)
    (hActor : Permitted r actor.agent input.actorMemberVersion .postMessage m)
    (hNone : ∀ msg, ¬PostedUnder h r.room.roomID actor.agent input.idempotencyKey msg) (w : Stamp) :
    ∃ r', exec (.postMessage actor input) w s =
        (.ok (.posted ⟨r.newMessage actor.agent input w.now w.ulid, false⟩), s.putRecord key r') ∧
      r'.messages.Perm (r.newMessage actor.agent input w.now w.ulid :: r.messages) := by
  have hSound := hs.records hr
  have hLocated : Located s input.roomID key r := ⟨hID ▸ (hs.rooms hr).right, hr⟩
  have hAbsent : r.idempotency[actor.agent ++ "#" ++ input.idempotencyKey]? = none := by
    by_contra hn
    have ⟨idem, hi⟩ := Option.ne_none_iff_exists'.mp hn
    have ⟨msg, hm, hAuthor, hKey', _⟩ := (hl.idempotent hr).owned hAgent hi
    have ⟨actor', input', hp, hID', hAgent', hKey''⟩ := hl.posted hr hm
    exact hNone msg ⟨actor', input', hp, hID', hAgent'.trans hAuthor, hKey''.trans hKey'⟩
  have hStep := Step.change (c := .postMessage actor input) (w := w)
    (by rw [Call.roomID, hID]; exact hSound.valid) hLocated
    (.post hKey hSound.active hActor hAbsent rfl)
  refine ⟨_, exec_ok.mpr hStep, ?_⟩
  exact (List.perm_insertionSort _ _).trans (List.perm_append_singleton _ _)

-- An agent that has posted under a key gets the message it has posted then, or a conflict.
theorem post_replays (hl : Logged h s) (hs : s.Sound) (hr : s.rooms[key]? = some r)
    (hID : input.roomID = r.room.roomID) (hKey : input.idempotencyKey ≠ [])
    (hActor : Permitted r actor.agent input.actorMemberVersion .postMessage m)
    (hp : PostedUnder h r.room.roomID actor.agent input.idempotencyKey msg) (w : Stamp) :
    msg ∈ r.messages ∧ msg.author = actor.agent ∧
    exec (.postMessage actor input) w s =
      if msg.requestHash = input.requestHash then (.ok (.posted ⟨msg, true⟩), s)
      else (.error .idempotencyConflict, s) := by
  have hSound := hs.records hr
  have hLocated : Located s input.roomID key r := ⟨hID ▸ (hs.rooms hr).right, hr⟩
  have ⟨actor', input', hp', hID', hAgent', hKey'⟩ := hp
  have ⟨key', r', hLocated', hm, hAuthor, hMsgKey, _⟩ := hl.stored hp'
  rw [hID', ←hID] at hLocated'
  cases hLocated.byID.symm.trans hLocated'.byID
  cases hLocated.byKey.symm.trans hLocated'.byKey
  have hi := hl.idempotent hr
  have hAuthor := hAuthor.trans hAgent'
  have hRecorded := hi.recorded hm
  rw [Message.entryKey, hAuthor, hMsgKey, hKey'] at hRecorded
  refine ⟨hm, hAuthor, ?_⟩
  split
  case isTrue hHash =>
    have hStep := Step.same (c := .postMessage actor input) (w := w)
      (by rw [Call.roomID, hID]; exact hSound.valid) hLocated
      (.postReplay hKey hSound.active hActor hRecorded hHash (hi.find hm))
    exact exec_ok.mpr hStep
  case isFalse hHash => exact exec_post_conflict hSound hLocated hID hKey hActor hRecorded hHash

-- Entries and messages correspond one to one, every entry's message can be found, and a permitted
-- post under a key is decided by what the same agent has posted in the room under this key.
theorem post_idempotent (hh : History exec (.new maxRooms maxMembers) h s) (hAuth : Authentic h)
    (hMinted : (minted h).Nodup) (hr : s.rooms[key]? = some r) :
    Set.BijOn Message.entryKey {msg | msg ∈ r.messages} r.idempotency.keys ∧
    (∀ {k : GoString} {idem : IdempotencyRecord}, r.idempotency[k]? = some idem →
      ∃ msg, r.messages.find? (·.messageID = idem.messageID) = some msg ∧ msg.entryKey = k ∧
        msg.requestHash = idem.requestHash) ∧
    ∀ {actor input m}, canonicalDNSName actor.agent = .ok actor.agent →
      input.roomID = r.room.roomID → input.idempotencyKey ≠ [] →
      Permitted r actor.agent input.actorMemberVersion .postMessage m → ∀ w,
      ((∀ msg, ¬PostedUnder h r.room.roomID actor.agent input.idempotencyKey msg) →
        ∃ r', exec (.postMessage actor input) w s =
            (.ok (.posted ⟨r.newMessage actor.agent input w.now w.ulid, false⟩),
              s.putRecord key r') ∧
          r'.messages.Perm (r.newMessage actor.agent input w.now w.ulid :: r.messages)) ∧
      (∀ msg, PostedUnder h r.room.roomID actor.agent input.idempotencyKey msg →
        msg ∈ r.messages ∧ msg.author = actor.agent ∧
        exec (.postMessage actor input) w s =
          if msg.requestHash = input.requestHash then (.ok (.posted ⟨msg, true⟩), s)
          else (.error .idempotencyConflict, s)) := by
  have hs := (governed hh).sound
  have hl := logged hh hAuth hMinted
  have hi := hl.idempotent hr
  refine ⟨hi.bijOn, fun {k idem} hk => ?_, fun hAgent hID hKey hActor w => ⟨?_, ?_⟩⟩
  case refine_1 =>
    have ⟨msg, hm, he⟩ := hi.found hk
    have hRecorded := hi.recorded hm
    rw [he, hk] at hRecorded
    cases hRecorded
    exact ⟨msg, hi.find hm, he, rfl⟩
  case refine_2 => exact fun hNone => post_appends hl hs hr hID hKey hAgent hActor hNone w
  case refine_3 => exact fun msg hp => post_replays hl hs hr hID hKey hActor hp w

end Memory

end

namespace Memory

attribute [local instance] asciiPlatform

theorem post_idempotent_retry :
    let w : Stamp := ⟨.zero, []⟩
    let s := (exec Sample.create w (.new 50 100)).2
    let s' := (exec (Sample.post Sample.alice "k" 1) w s).2
    ∃ r msg, s'.rooms[Base64.encode "lobby"]? = some r ∧ msg ∈ r.messages ∧
      exec (Sample.post Sample.alice "k" 1) w s' = (.ok (.posted ⟨msg, true⟩), s') := by
  intro w s s'
  let h : Calls := [⟨Sample.create, w, (exec Sample.create w (.new 50 100)).1⟩,
    ⟨Sample.post Sample.alice "k" 1, w, (exec (Sample.post Sample.alice "k" 1) w s).1⟩]
  have hh : History exec (.new 50 100) h s' := .call _ w <| .call _ w .init
  have hAlice : canonicalDNSName Sample.alice.agent = .ok Sample.alice.agent := by decide
  have hAuth : Authentic h := by
    intro c hc actor ha
    simp only [h, List.mem_cons, List.not_mem_nil, or_false] at hc
    obtain rfl | rfl := hc <;> cases ha <;> exact hAlice
  have ⟨r, m, hr, hActor, hID⟩ : ∃ r m, s'.rooms[Base64.encode "lobby"]? = some r ∧
      Permitted r Sample.alice.agent (Sample.message "k" 1).actorMemberVersion .postMessage m ∧
      (Sample.message "k" 1).roomID = r.room.roomID :=
    ⟨_, _, rfl, ⟨rfl, .inr rfl, rfl⟩, rfl⟩
  have ⟨msg, hp, hHash⟩ : ∃ msg, (exec (Sample.post Sample.alice "k" 1) w s).1 =
      .ok (.posted ⟨msg, false⟩) ∧ msg.requestHash = (Sample.message "k" 1).requestHash :=
    ⟨_, rfl, rfl⟩
  have hp : Posted h Sample.alice (Sample.message "k" 1) msg :=
    ⟨w, false, hp ▸ List.mem_cons_of_mem _ List.mem_cons_self⟩
  have hi := (post_idempotent hh hAuth (by decide) hr).right.right hAlice hID (by decide)
    hActor w
  have ⟨hm, _, he⟩ := hi.right msg ⟨_, _, hp, hID, rfl, rfl⟩
  rw [if_pos hHash] at he
  exact ⟨r, msg, hr, hm, he⟩

end Memory
end Board
