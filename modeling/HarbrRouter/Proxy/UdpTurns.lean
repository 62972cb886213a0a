import HarbrRouter.Proxy.Udp

/-!
# The turns of the cleanup and of the start task

`CleanupStep` and `ServerStep` say what a step of these tasks does to the map and the counters. What
the iteration over the shards misses or does not miss, and what the clearing at a shutdown has
behind it, rests on the conditions of the steps as well; the relations here have them all, one
constructor for each program point, and every step is one of them (`CleanupPc.step_turn`,
`ServerPc.step_turn`).
-/

set_option autoImplicit false

namespace HarbrRouter.Proxy.Udp

variable {D : Deployment} {tasks new : List Task} {sh sh' : Shared} {inst : ℕ} {e : Event}

/-- Does a look at the entry of the client find an expired session? -/
def Shared.findsExpired (D : Deployment) (sh : Shared) (inst : ℕ) (client : SocketAddr) : Bool :=
  (sh.sessions.lookup client).any fun sid => sh.isExpired sid (D.timeoutSecs inst)

/-- The turns of a cleanup task, with their conditions. -/
inductive CleanupTurn (D : Deployment) (tasks : List Task) (sh : Shared) (inst : ℕ) :
    CleanupPc → Event → Shared → CleanupPc → Prop
  | tick : CleanupTurn D tasks sh inst .waiting .tick sh (.entering 0 [])
  | enter {shard : ℕ} {expired clients : List SocketAddr}
      (hperm : clients.Perm (sh.sessions.keys.filter fun c => D.shardOf c = shard)) :
      CleanupTurn D tasks sh inst (.entering shard expired) (.order clients) sh
        (.sweeping shard clients expired)
  | swept {shard : ℕ} {expired : List SocketAddr} (h : ¬ shard < D.shardCount) :
      CleanupTurn D tasks sh inst (.entering shard expired) .step sh (.removing expired)
  | found {shard : ℕ} {client : SocketAddr} {rest expired : List SocketAddr}
      (h : sh.findsExpired D inst client = true) :
      CleanupTurn D tasks sh inst (.sweeping shard (client :: rest) expired) .step sh
        (.sweeping shard rest (expired ++ [client]))
  | live {shard : ℕ} {client : SocketAddr} {rest expired : List SocketAddr}
      (h : sh.findsExpired D inst client ≠ true) :
      CleanupTurn D tasks sh inst (.sweeping shard (client :: rest) expired) .step sh
        (.sweeping shard rest expired)
  | leave {shard : ℕ} {expired : List SocketAddr} :
      CleanupTurn D tasks sh inst (.sweeping shard [] expired) .step sh
        (.entering (shard + 1) expired)
  | remove {client : SocketAddr} {expired : List SocketAddr} (h : client ∈ sh.sessions) :
      CleanupTurn D tasks sh inst (.removing (client :: expired)) .step
        { sh with sessions := sh.sessions.erase client } (.countExpired expired)
  | gone {client : SocketAddr} {expired : List SocketAddr} (h : client ∉ sh.sessions) :
      CleanupTurn D tasks sh inst (.removing (client :: expired)) .step sh (.removing expired)
  | removed : CleanupTurn D tasks sh inst (.removing []) .step sh .waiting
  | countExpired {expired : List SocketAddr} :
      CleanupTurn D tasks sh inst (.countExpired expired) .step sh.countExpired
        (.decActive expired)
  | decActive {expired : List SocketAddr} :
      CleanupTurn D tasks sh inst (.decActive expired) .step sh.decActive (.removing expired)

/-- Every step of a cleanup task is one of its turns. -/
theorem CleanupPc.step_turn {pc pc' : CleanupPc}
    (h : pc.step D tasks sh inst e = some (sh', pc')) :
    CleanupTurn D tasks sh inst pc e sh' pc' := by
  unfold CleanupPc.step at h
  split at h
  · obtain ⟨rfl, rfl⟩ : _ ∧ _ := by simpa using h
    exact .tick
  · split_ifs at h with hperm
    obtain ⟨rfl, rfl⟩ : _ ∧ _ := by simpa using h
    exact .enter hperm.2
  · split_ifs at h with hlt
    obtain ⟨rfl, rfl⟩ : _ ∧ _ := by simpa using h
    exact .swept hlt
  · split_ifs at h with hcheck
    · obtain ⟨rfl, rfl⟩ : _ ∧ _ := by simpa using h
      exact .found hcheck
    · obtain ⟨rfl, rfl⟩ : _ ∧ _ := by simpa using h
      exact .live hcheck
  · obtain ⟨rfl, rfl⟩ : _ ∧ _ := by simpa using h
    exact .leave
  · split_ifs at h with hguard hin
    · obtain ⟨rfl, rfl⟩ : _ ∧ _ := by simpa using h
      exact .remove hin
    · obtain ⟨rfl, rfl⟩ : _ ∧ _ := by simpa using h
      exact .gone hin
  · obtain ⟨rfl, rfl⟩ : _ ∧ _ := by simpa using h
    exact .removed
  · obtain ⟨rfl, rfl⟩ : _ ∧ _ := by simpa using h
    exact .countExpired
  · obtain ⟨rfl, rfl⟩ : _ ∧ _ := by simpa using h
    exact .decActive
  · exact absurd h (by simp)

/-- The turns of a start task, with their conditions. -/
inductive ServerTurn (D : Deployment) (tasks : List Task) (sh : Shared) :
    ServerPc → Event → Shared → ServerPc → Prop
  | bound : ServerTurn D tasks sh .binding .bound sh .serving
  | bindFailed {text : String} {error : Error} :
      ServerTurn D tasks sh .binding (.bindFailed text) sh (.finished (.error error))
  | received {e : Event} : ServerTurn D tasks sh .serving e sh .serving
  | shutdown : ServerTurn D tasks sh .serving .shutdown sh (.clearing 0)
  | clear {shard : ℕ} (hguard : guarded D tasks shard ≠ true) :
      ServerTurn D tasks sh (.clearing shard) .step
        { sh with sessions := clearShard D sh.sessions shard } (.clearing (shard + 1))
  | cleared {shard : ℕ} (h : ¬ shard < D.shardCount) :
      ServerTurn D tasks sh (.clearing shard) .step sh (.finished (.ok ()))

/-- Every step of a start task is one of its turns. -/
theorem ServerPc.step_turn {pc pc' : ServerPc}
    (h : pc.step D tasks sh inst e = some (sh', pc', new)) :
    ServerTurn D tasks sh pc e sh' pc' := by
  unfold ServerPc.step at h
  split at h
  · obtain ⟨rfl, rfl, rfl⟩ : _ ∧ _ ∧ _ := by simpa using h
    exact .bound
  · obtain ⟨rfl, rfl, rfl⟩ : _ ∧ _ ∧ _ := by simpa using h
    exact .bindFailed
  · obtain ⟨rfl, rfl, rfl⟩ : _ ∧ _ ∧ _ := by simpa using h
    exact .received
  · obtain ⟨rfl, rfl, rfl⟩ : _ ∧ _ ∧ _ := by simpa using h
    exact .received
  · obtain ⟨rfl, rfl, rfl⟩ : _ ∧ _ ∧ _ := by simpa using h
    exact .shutdown
  · split_ifs at h with hlt hguard
    · obtain ⟨rfl, rfl, rfl⟩ : _ ∧ _ ∧ _ := by simpa using h
      exact .clear hguard
    · obtain ⟨rfl, rfl, rfl⟩ : _ ∧ _ ∧ _ := by simpa using h
      exact .cleared hlt
  · exact absurd h (by simp)

end HarbrRouter.Proxy.Udp
