import SentinelCommand.Hls.AuthRules

/-
  Freshness of the auth cache, over every interleaving of
  readers, lookups, requests and writers.

  Key definitions include:
    * `Hls.AuthTask`
    * `Hls.startAuth`

  Main declarations:
    * `Hls.authInv_run`
    * `Hls.lookups_fresh`
-/

--------------------
-- Tasks
--------------------

namespace SentinelCommand

namespace Hls

open Interleaving

/-
  Readers query and cache; lookups ask the cache alone; the
  two requests do both; a write commits any change and then
  invalidates; time passes.
-/
inductive AuthTask where
  | readNode (keyHash : String)
  | readCamera (nodePk : Int) (orgId cameraId : String)
  | readViewable (orgId cameraId : String)
  | lookUpNode (keyHash : String)
  | lookUpCamera (nodePk : Int) (cameraId : String)
  | lookUpViewable (orgId cameraId : String)
  | push (keyHash : Option String) (cameraId : String)
  | view (orgId cameraId : String)
  | write (change : Db → Db)
  | wait (time : Nat)

/- The thread of a task. -/
def startAuth
    (task : AuthTask)
    (id : Nat) : Program Unit Unit :=
  match task with
  | .readNode keyHash =>
      authGeneration ()
        (fun seen =>
          query () (fun db => selectPushNode db keyHash)
            (fun row readAt =>
              match row with
              | none => .done
              | some node =>
                  cachePushNode id () seen keyHash node readAt
                    .done))
  | .readCamera nodePk orgId cameraId =>
      authGeneration ()
        (fun seen =>
          query ()
            (fun db =>
              selectPushCamera db nodePk orgId cameraId)
            (fun row readAt =>
              match row with
              | none => .done
              | some camera =>
                  cachePushCamera id () seen nodePk cameraId
                    camera readAt .done))
  | .readViewable orgId cameraId =>
      authGeneration ()
        (fun seen =>
          query ()
            (fun db => selectViewable db orgId cameraId)
            (fun row readAt =>
              match row with
              | some (some nodeId) =>
                  cacheViewable id () seen orgId cameraId
                    nodeId readAt .done
              | _ => .done))
  | .lookUpNode keyHash =>
      cachedPushNode id () keyHash (fun _ => .done)
  | .lookUpCamera nodePk cameraId =>
      cachedPushCamera id () nodePk cameraId (fun _ => .done)
  | .lookUpViewable orgId cameraId =>
      cachedViewable id () orgId cameraId (fun _ => .done)
  | .push keyHash cameraId =>
      resolvePushTarget id () keyHash cameraId
        (fun _ => .done)
  | .view orgId cameraId =>
      viewableCameraNode id () orgId cameraId (fun _ => .done)
  | .write change =>
      commit () change
        (fun committed =>
          invalidateAuthCache () committed .done)
  | .wait time =>
      atomic ()
        (fun s => ({ s with clock := s.clock + time }, ()))
        (fun _ => .done)

/- The cache alone: nothing more is asserted. -/
def authAlone : Setting Unit where
  Extra _ := True
  Keeps _ _ := True
  keeps_refl _ := trivial
  keeps_trans _ _ _ _ _ := trivial
  extra_cache _ _ _ _ _ := trivial
  keeps_cache _ _ _ _ := trivial

--------------------
-- Every interleaving
--------------------

variable {ok : Unit → Shared Unit → Prop}

/- A writer commits, and then invalidates what it made. -/
theorem valid_write
    (change : Db → Db)
    (id : Nat)
    (s : Shared Unit) :
    Valid authAlone.Inv authAlone.Guar ok id s
      (startAuth (.write change) id) := by
  refine valid_commit (fun _ _ _ _ => ⟨trivial, trivial⟩) ?_
  intro now _ _ _ _
  refine valid_invalidateAuthCache (Nat.le_refl _)
    (fun _ _ _ _ => ⟨trivial, trivial⟩) ?_
  intro last _ _ _ _
  exact Valid.done _

/- Time passes; nothing is asserted about the clock. -/
theorem valid_wait
    (time : Nat)
    (id : Nat)
    (s : Shared Unit) :
    Valid authAlone.Inv authAlone.Guar ok id s
      (startAuth (.wait time) id) := by
  unfold startAuth
  refine valid_atomic ?_
  intro now _ hInv _
  exact
    ⟨⟨authInv_outside hInv.auth _ _, trivial⟩,
      ⟨guarAuth_outside id now _ _, trivial⟩, Valid.done _⟩

theorem valid_startAuth
    (task : AuthTask)
    (id : Nat)
    (s : Shared Unit)
    (hInv : authAlone.Inv s) :
    Valid authAlone.Inv authAlone.Guar ok id s
      (startAuth task id) := by
  cases task with
  | readNode keyHash =>
      refine valid_taggedQuery ?_
      intro seen now _ hNowInv hSeen
      cases hRow : selectPushNode now.db keyHash with
      | none => exact Valid.done now
      | some node =>
          exact valid_cachePushNode hSeen
            (entryOk_query hNowInv.auth hRow seen)
            (fun after _ _ => Valid.done after)
  | readCamera nodePk orgId cameraId =>
      refine valid_taggedQuery ?_
      intro seen now _ hNowInv hSeen
      cases hRow :
        selectPushCamera now.db nodePk orgId cameraId with
      | none => exact Valid.done now
      | some camera =>
          exact valid_cachePushCamera hSeen
            (entryOk_query hNowInv.auth ⟨orgId, hRow⟩ seen)
            (fun after _ _ => Valid.done after)
  | readViewable orgId cameraId =>
      refine valid_taggedQuery ?_
      intro seen now _ hNowInv hSeen
      cases hRow : selectViewable now.db orgId cameraId with
      | none => exact Valid.done now
      | some nodeId =>
          cases nodeId with
          | none => exact Valid.done now
          | some nodeId =>
              exact valid_cacheViewable hSeen
                (entryOk_query hNowInv.auth hRow seen)
                (fun after _ _ => Valid.done after)
  | lookUpNode keyHash =>
      exact valid_cachedPushNode
        (fun after _ _ _ => Valid.done after)
  | lookUpCamera nodePk cameraId =>
      exact valid_cachedPushCamera (List.nil_subset _)
        (fun after _ _ => Valid.done after)
        (fun after _ _ _ _ _ => Valid.done after)
  | lookUpViewable orgId cameraId =>
      exact valid_cachedViewable
        (fun after _ _ _ => Valid.done after)
  | push keyHash cameraId =>
      unfold startAuth
      refine valid_resolvePushTarget (List.nil_subset _) ?_ ?_
        hInv
      · intro after error _ _
        exact Valid.done after
      · intro after target nodePk camera _ _ _ _
        exact Valid.done after
  | view orgId cameraId =>
      exact valid_viewableCameraNode
        (fun after _ _ _ => Valid.done after)
  | write change => exact valid_write change id s
  | wait time => exact valid_wait time id s

theorem authInv_initial
    (ttl : Nat)
    (db : Db) :
    AuthInv (Shared.initial ttl db ()) where
  returned w hMem := by simp [Shared.initial] at hMem
  synced := Nat.le_refl _
  nodes := tableOk_empty nodeHolds _ _
  cameras := tableOk_empty cameraHolds _ _
  viewable := tableOk_empty viewableHolds _ _
  answers a hMem := by simp [Shared.initial] at hMem

/- The state of a run from a database, with an empty cache. -/
def authRun
    (ttl : Nat)
    (db : Db)
    (events : List (Event AuthTask)) : Shared Unit :=
  (Run.exec (step startAuth)
    (initial (Shared.initial ttl db ())) events).shared

/- Every run keeps the cache's invariant. -/
theorem authInv_run
    (ttl : Nat)
    (db : Db)
    (events : List (Event AuthTask)) :
    AuthInv (authRun ttl db events) := by
  have hMeets :
      Run.Meets (step startAuth)
        (EventOk (fun (_ : Unit) (_ : Shared Unit) => True))
        (initial (Shared.initial ttl db ())) events := by
    refine (Run.meets_iff_forall_prefix _ _ _ _).mpr ?_
    intro past event _
    cases event with
    | spawn task => trivial
    | run id =>
        simp only [EventOk]
        split <;> trivial
  have hFinal : authAlone.Inv (authRun ttl db events) :=
    sound valid_startAuth
      ⟨authInv_initial ttl db, trivial⟩ hMeets
  exact hFinal.auth

/-
  Whatever the interleaving, what a lookup yields is true of
  a version of the database no older than the commit of any
  writer whose invalidation had returned when it began.
-/
theorem lookups_fresh
    (ttl : Nat)
    (db : Db)
    (events : List (Event AuthTask)) :
    ∀ a ∈ (authRun ttl db events).answers,
      a.fact.HoldsIn
          ((authRun ttl db events).versions a.readAt) ∧
        ∀ w ∈ a.before, w.commit ≤ a.readAt := by
  intro a hMem
  have hAnswer := (authInv_run ttl db events).answers a hMem
  exact ⟨hAnswer.holds, hAnswer.fresh⟩

/- One node and its key. -/
def yard : Db where
  cameraNodes :=
    [{ pk := 1, orgId := "org_1", nodeId := "node_1"
       apiKeyHash := "hash" }]
  cameras := []
  unique := by decide

/- A node is read and cached, and then looked up. -/
def cachedThenFound : List (Event AuthTask) :=
  .spawn (.readNode "hash") :: List.replicate 6 (.run 0) ++
    .spawn (.lookUpNode "hash") :: List.replicate 5 (.run 1)

/- What that lookup yields. -/
def foundNode : Answer where
  before := []
  fact :=
    .node "hash"
      { pk := 1, orgId := "org_1", nodeId := "node_1" }
  readAt := 0

theorem lookups_fresh_cachedThenFound :
    foundNode.fact.HoldsIn
        ((authRun 10 yard cachedThenFound).versions 0) ∧
      ∀ w ∈ foundNode.before, w.commit ≤ 0 :=
  lookups_fresh 10 yard cachedThenFound foundNode (by decide)

/- A reader that raced a write caches nothing. -/
example :
    (authRun 10 yard
      (List.flatten
        [[.spawn (.readNode "hash")],
          List.replicate 2 (.run 0),
          [.spawn (.write id), .run 1, .run 1],
          List.replicate 4 (.run 0),
          [.spawn (.lookUpNode "hash")],
          List.replicate 5 (.run 2)])).answers = [] := by
  decide

end Hls

end SentinelCommand
