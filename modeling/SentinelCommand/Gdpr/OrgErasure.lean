import SentinelCommand.Gdpr.OrgData

/-
  What an erasure of an organization deletes, and whether
  the export has shown it.

  Main declarations:
    * `Gdpr.gone`
    * `Gdpr.erasure_exact`
    * `Gdpr.export_covers_iff`
-/

--------------------
-- What Is Deleted
--------------------

namespace SentinelCommand

open Relational

namespace Gdpr

/- Evidence of an incident of the organization. -/
def ofOwnIncident
    (rows : Rows Table)
    (orgId : String)
    (evidence : Row) : Bool :=
  ((rows .incidents).filter (inOrg orgId)).any
    (fun incident =>
      (evidence.cell "incident_id").same (incident.cell "id"))

/- The rows that an erasure takes. -/
def gone
    (rows : Rows Table)
    (orgId : String) :
    Table → Row → Bool
| .incidentEvidence, row => ofOwnIncident rows orgId row
| .cameras, row => onOwnNode rows orgId row || inOrg orgId row
| .emailSuppression, _ => false
| .processedWebhooks, _ => false
| _, row => inOrg orgId row

/-
  A camera that is neither the organization's nor on one of
  its nodes is in one of its groups.
-/
def GroupShared (rows : Rows Table) (orgId : String) : Prop :=
  ∃ camera ∈ rows .cameras,
    gone rows orgId .cameras camera = false ∧
      ∃ group ∈ rows .cameraGroups,
        inOrg orgId group = true ∧
          (camera.cell "group_id").same (group.cell "id") = true

instance (rows : Rows Table) (orgId : String) :
    Decidable (GroupShared rows orgId) :=
  inferInstanceAs (Decidable (∃ camera ∈ rows .cameras, _ ∧ _))

theorem layered_orgSchema : Layered orgSchema.links where
  ordered := by decide
  apart := by decide
  quiet := by decide

/- No key refers to the rows of a table but of these three. -/
theorem parent_of_link
    {link : ForeignKey Table}
    (hLink : link ∈ orgSchema.links) :
    link.parent = .incidents ∨ link.parent = .cameraNodes ∨
      link.parent = .cameraGroups := by
  revert link
  decide

theorem link_of_node
    {link : ForeignKey Table}
    (hLink : link ∈ orgSchema.links)
    (hParent : link.parent = .cameraNodes) :
    link.child = .cameras ∧ link.column = "node_id" ∧
      link.parentColumn = "id" := by
  revert link
  decide

theorem link_of_group
    {link : ForeignKey Table}
    (hLink : link ∈ orgSchema.links)
    (hParent : link.parent = .cameraGroups) :
    link.child = .cameras ∧ link.column = "group_id" ∧
      link.parentColumn = "id" := by
  revert link
  decide

/- Only evidence follows a deleted row. -/
theorem rows_cascade
    {table : Table}
    (rows : Rows Table)
    (hTable : table ≠ .incidentEvidence) :
    cascade orgSchema.links rows table = rows table := by
  have hOnly :
      ∀ link ∈ orgSchema.links, link.onDelete = .cascade →
        link.child = .incidentEvidence := by
    decide
  apply cascade_eq_of_not_child
  intro link hLink hAction hChild
  exact hTable (hChild.symm.trans (hOnly link hLink hAction))

theorem mem_allTables (table : Table) : table ∈ allTables := by
  cases table <;> decide

theorem distinct_id (db : OrgDb) (table : Table) :
    Distinct "id" (db.rows table) := by
  apply db.conforms.unique (table, "id")
  apply List.mem_append_left
  exact List.mem_map.mpr ⟨table, mem_allTables table, rfl⟩

/- Two rows of a table with the same number are one. -/
theorem eq_of_refers
    (db : OrgDb)
    {table : Table}
    {value : Cell}
    {a b : Row}
    (hA : a ∈ db.rows table)
    (hB : b ∈ db.rows table)
    (hValueA : value.same (a.cell "id") = true)
    (hValueB : value.same (b.cell "id") = true) :
    a = b := by
  apply (distinct_id db table).eq_of_same hA hB
  rw [Cell.same_comm] at hValueA
  exact Cell.same_trans hValueA hValueB

theorem exists_incident
    (db : OrgDb)
    {evidence : Row}
    (hEvidence : evidence ∈ db.rows .incidentEvidence) :
    ∃ incident ∈ db.rows .incidents,
      (evidence.cell "incident_id").same (incident.cell "id") =
        true := by
  have hHolds :=
    db.conforms.linked evidenceLink (by decide) evidence
      hEvidence
  have hNotNull :=
    db.conforms.notNull (.incidentEvidence, "incident_id")
      (by decide) evidence hEvidence
  exact holds_iff.mp hHolds hNotNull

theorem exists_group
    (db : OrgDb)
    {camera : Row}
    (hCamera : camera ∈ db.rows .cameras)
    (hNotNull : camera.cell "group_id" ≠ .null) :
    ∃ group ∈ db.rows .cameraGroups,
      (camera.cell "group_id").same (group.cell "id") = true := by
  have hHolds :=
    db.conforms.linked groupLink (by decide) camera hCamera
  exact holds_iff.mp hHolds hNotNull

--------------------
-- The Scoped Tables
--------------------

variable {orgId : String}

/- No camera is in a group of the organization. -/
def GroupsFree (rows : Rows Table) (orgId : String) : Prop :=
  ∀ camera ∈ rows .cameras, ∀ group ∈ rows .cameraGroups,
    (camera.cell "group_id").same (group.cell "id") = true →
      inOrg orgId group = false

theorem deleteScoped_eq_some
    {tables : List Table}
    {db : OrgDb}
    (hTables :
      ∀ table ∈ tables,
        table ≠ .incidents ∧ table ≠ .cameraNodes)
    (hFree : GroupsFree db.rows orgId) :
    ∃ db' counts,
      deleteScoped orgId tables db = some (db', counts) ∧
        ∀ table,
          db'.rows table =
            (db.rows table).filter
              (fun row =>
                !(decide (table ∈ tables) &&
                  inOrg orgId row)) := by
  induction tables generalizing db with
  | nil =>
      refine ⟨db, [], rfl, ?_⟩
      intro table
      exact (List.filter_eq_self.mpr (fun _ _ => rfl)).symm
  | cons first rest ih =>
      have hFirst := hTables first List.mem_cons_self
      have hOne :
          ∃ db' count,
            db.delete first (inOrg orgId) = some (db', count) ∧
              db'.rows =
                without db.rows first (inOrg orgId) := by
        apply Store.delete_plain
        intro link hLink hParent row hRow parent hIn hSame
        subst hParent
        have hChild :
            row ∈ db.rows link.child :=
          (without_sublist _ _ _ _).subset hRow
        rcases parent_of_link hLink with hIs | hIs | hIs
        · exact absurd hIs hFirst.1
        · exact absurd hIs hFirst.2
        · rcases link_of_group hLink hIs with
            ⟨hCameras, hColumn, hId⟩
          rw [hIs] at hIn
          rw [hCameras] at hChild
          rw [hColumn, hId] at hSame
          exact hFree row hChild parent hIn hSame
      rcases hOne with ⟨db', count, hDelete, hRows⟩
      have hFreeNext : GroupsFree db'.rows orgId := by
        intro camera hCamera group hGroup
        rw [hRows] at hCamera hGroup
        exact hFree camera
          ((without_sublist _ _ _ _).subset hCamera) group
          ((without_sublist _ _ _ _).subset hGroup)
      rcases ih (fun table hTable =>
          hTables table (List.mem_cons_of_mem first hTable))
          hFreeNext with
        ⟨last, counts, hRest, hLast⟩
      refine ⟨last, (first.name, count) :: counts, ?_, ?_⟩
      · simp [deleteScoped, hDelete, hRest]
      · intro table
        rw [hLast, hRows, rows_without, List.filter_filter]
        apply List.filter_congr
        intro row hRow
        simp only [List.mem_cons, Bool.decide_or]
        cases decide (table = first) <;>
          cases decide (table ∈ rest) <;>
          cases inOrg orgId row <;> rfl

/- A camera in such a group stops the loop. -/
theorem deleteScoped_eq_none
    {tables : List Table}
    {db : OrgDb}
    (hTables :
      ∀ table ∈ tables,
        table ≠ .incidents ∧ table ≠ .cameras)
    (hGroups : .cameraGroups ∈ tables)
    {camera group : Row}
    (hCamera : camera ∈ db.rows .cameras)
    (hGroup : group ∈ db.rows .cameraGroups)
    (hOwn : inOrg orgId group = true)
    (hIn :
      (camera.cell "group_id").same (group.cell "id") = true) :
    deleteScoped orgId tables db = none := by
  induction tables generalizing db with
  | nil => exact absurd hGroups List.not_mem_nil
  | cons first rest ih =>
      have hFirst := hTables first List.mem_cons_self
      cases hDelete : db.delete first (inOrg orgId) with
      | none => simp [deleteScoped, hDelete]
      | some result =>
          rcases result with ⟨db', count⟩
          have hRows := Store.delete_eq_some hDelete
          have hCamera' : camera ∈ db'.rows .cameras := by
            rw [hRows, rows_cascade _ (by decide), rows_without]
            refine List.mem_filter.mpr ⟨hCamera, ?_⟩
            simp [hFirst.2.symm]
          by_cases hHere : first = .cameraGroups
          · exfalso
            subst hHere
            rcases exists_group db' hCamera'
                (Cell.same_iff.mp hIn).2 with
              ⟨other, hOther, hSame⟩
            rw [hRows, rows_cascade _ (by decide), rows_without,
              List.mem_filter] at hOther
            have hOne :=
              eq_of_refers db hOther.1 hGroup hSame hIn
            subst hOne
            simp [hOwn] at hOther
          · have hGroup' : group ∈ db'.rows .cameraGroups := by
              rw [hRows, rows_cascade _ (by decide),
                rows_without]
              refine List.mem_filter.mpr ⟨hGroup, ?_⟩
              simp [Ne.symm hHere]
            have hRest :=
              ih (fun table hTable =>
                  hTables table
                    (List.mem_cons_of_mem first hTable))
                ((List.mem_cons.mp hGroups).resolve_left
                  (Ne.symm hHere))
                hCamera' hGroup'
            simp [deleteScoped, hDelete, hRest]

--------------------
-- The Whole Erasure
--------------------

/- What follows an incident is what belongs to it. -/
theorem holds_evidence
    (db : OrgDb)
    {evidence : Row}
    (hEvidence : evidence ∈ db.rows .incidentEvidence) :
    evidenceLink.holds
        (without db.rows .incidents (inOrg orgId)) evidence =
      !ofOwnIncident db.rows orgId evidence := by
  rcases exists_incident db hEvidence with
    ⟨incident, hIncident, hSame⟩
  have hOwn :
      ofOwnIncident db.rows orgId evidence =
        inOrg orgId incident := by
    apply Bool.eq_iff_iff.mpr
    unfold ofOwnIncident
    rw [List.any_eq_true]
    constructor
    · rintro ⟨other, hOther, hAlso⟩
      rw [List.mem_filter] at hOther
      have hOne :=
        eq_of_refers db hOther.1 hIncident hAlso hSame
      exact hOne ▸ hOther.2
    · intro hIn
      exact ⟨incident, List.mem_filter.mpr ⟨hIncident, hIn⟩,
        hSame⟩
  apply Bool.eq_iff_iff.mpr
  rw [hOwn, Bool.not_eq_true', holds_iff]
  have hNotNull := (Cell.same_iff.mp hSame).2
  constructor
  · intro hHolds
    rcases hHolds hNotNull with ⟨other, hOther, hAlso⟩
    rw [rows_without, List.mem_filter] at hOther
    have hOne :=
      eq_of_refers db hOther.1 hIncident hAlso hSame
    subst hOne
    simpa [evidenceLink] using hOther.2
  · intro hOut _
    refine ⟨incident, ?_, hSame⟩
    rw [rows_without]
    exact List.mem_filter.mpr ⟨hIncident, by simp [hOut]⟩

/- The first statement and its cascade. -/
theorem delete_incidents (db : OrgDb) (orgId : String) :
    ∃ db' count,
      db.delete .incidents (inOrg orgId) = some (db', count) ∧
        ∀ table,
          db'.rows table =
            (db.rows table).filter
              (fun row =>
                !((decide (table = .incidents) &&
                    inOrg orgId row) ||
                  (decide (table = .incidentEvidence) &&
                    ofOwnIncident db.rows orgId row))) := by
  have hFree :
      ∀ link ∈ orgSchema.links, link.onDelete = .noAction →
        link.parent ≠ .incidents := by
    decide
  rcases Store.delete_cascading db (inOrg orgId)
      layered_orgSchema hFree with
    ⟨db', count, hDelete, hRows⟩
  refine ⟨db', count, hDelete, ?_⟩
  intro table
  by_cases hEvidence : table = .incidentEvidence
  · subst hEvidence
    have hCascade :
        db'.rows .incidentEvidence =
          without (without db.rows .incidents (inOrg orgId))
            .incidentEvidence
            (fun row =>
              !evidenceLink.holds
                (without db.rows .incidents (inOrg orgId)) row)
            .incidentEvidence :=
      congrFun hRows .incidentEvidence
    rw [hCascade, rows_without, rows_without,
      List.filter_filter]
    apply List.filter_congr
    intro row hRow
    rw [holds_evidence db hRow]
    simp
  · rw [hRows, rows_cascade _ hEvidence, rows_without]
    apply List.filter_congr
    intro row hRow
    simp [hEvidence]

/- What is gone before the loop over the scoped tables. -/
def goneFirst
    (rows : Rows Table)
    (orgId : String) :
    Table → Row → Bool
| .incidents, row => inOrg orgId row
| .incidentEvidence, row => ofOwnIncident rows orgId row
| .cameraNodes, row => inOrg orgId row
| .cameras, row => onOwnNode rows orgId row || inOrg orgId row
| _, _ => false

theorem gone_eq
    (rows : Rows Table)
    (orgId : String)
    (table : Table)
    (row : Row) :
    gone rows orgId table row =
      (goneFirst rows orgId table row ||
        (decide (table ∈ orgScopedTables) &&
          inOrg orgId row)) := by
  cases table <;> simp [gone, goneFirst, orgScopedTables]

/- No key refers to a camera. -/
theorem delete_cameras (db : OrgDb) (meets : Row → Bool) :
    ∃ db' count,
      db.delete .cameras meets = some (db', count) ∧
        db'.rows = without db.rows .cameras meets := by
  apply Store.delete_plain
  intro link hLink hParent
  rcases parent_of_link hLink with hIs | hIs | hIs <;>
    · rw [hIs] at hParent
      contradiction

/- With its cameras gone a node can go. -/
theorem delete_nodes
    (db : OrgDb)
    (hFree :
      ∀ camera ∈ db.rows .cameras,
        onOwnNode db.rows orgId camera = false) :
    ∃ db' count,
      db.delete .cameraNodes (inOrg orgId) =
          some (db', count) ∧
        db'.rows =
          without db.rows .cameraNodes (inOrg orgId) := by
  apply Store.delete_plain
  intro link hLink hParent row hRow node hNode hSame
  rcases link_of_node hLink hParent with
    ⟨hCameras, hColumn, hId⟩
  rw [hColumn, hId] at hSame
  have hCamera : row ∈ db.rows .cameras :=
    hCameras ▸ (without_sublist _ _ _ _).subset hRow
  have hOff := hFree row hCamera
  unfold onOwnNode at hOff
  rw [List.any_eq_false] at hOff
  by_contra hIn
  exact hOff node
    (List.mem_filter.mpr ⟨hNode, (Bool.not_eq_false _).mp hIn⟩)
    hSame

theorem deleteOrgData_eq (db : OrgDb) (orgId : String) :
    ∃ first : OrgDb, ∃ counts : List (String × Nat),
      (∀ table,
        first.rows table =
          (db.rows table).filter
            (fun row => !goneFirst db.rows orgId table row)) ∧
      deleteOrgData db orgId =
        (deleteScoped orgId orgScopedTables first).map
          (fun result => (result.1, counts ++ result.2)) := by
  rcases delete_incidents db orgId with
    ⟨db₁, incidents, hDelete₁, hRows₁⟩
  have hNodes₁ :
      db₁.rows .cameraNodes = db.rows .cameraNodes := by
    rw [hRows₁]
    exact List.filter_eq_self.mpr (fun _ _ => rfl)
  have hOwnNode :
      onOwnNode db₁.rows orgId = onOwnNode db.rows orgId := by
    funext row
    unfold onOwnNode
    rw [hNodes₁]
  rcases delete_cameras db₁ (onOwnNode db₁.rows orgId) with
    ⟨db₂, taken, hDelete₂, hRows₂⟩
  have hNodes₂ :
      db₂.rows .cameraNodes = db.rows .cameraNodes := by
    rw [hRows₂, ← hNodes₁]
    exact Function.update_of_ne (by decide) _ _
  have hFree₂ :
      ∀ camera ∈ db₂.rows .cameras,
        onOwnNode db₂.rows orgId camera = false := by
    intro camera hCamera
    rw [hRows₂, rows_without, List.mem_filter] at hCamera
    have hOff : onOwnNode db.rows orgId camera = false := by
      simpa [hOwnNode] using hCamera.2
    unfold onOwnNode at hOff ⊢
    rw [hNodes₂]
    exact hOff
  rcases delete_nodes db₂ hFree₂ with
    ⟨db₃, nodes, hDelete₃, hRows₃⟩
  rcases delete_cameras db₃ (inOrg orgId) with
    ⟨db₄, rest, hDelete₄, hRows₄⟩
  refine ⟨db₄,
    [("incidents", incidents), ("camera_nodes", nodes),
      ("cameras",
        ((db.rows .cameras).filter (inOrg orgId)).length)],
    ?_, ?_⟩
  · intro table
    rw [hRows₄, rows_without, hRows₃, rows_without, hRows₂,
      rows_without, hRows₁, List.filter_filter,
      List.filter_filter, List.filter_filter, hOwnNode]
    apply List.filter_congr
    intro row hRow
    cases table <;> simp [goneFirst, Bool.and_comm]
  · simp only [deleteOrgData, hDelete₁, hDelete₂, hDelete₃,
      hDelete₄, Option.bind_eq_bind, Option.bind_some]
    cases deleteScoped orgId orgScopedTables db₄ <;> rfl

/-
  An erasure goes through unless a group of the organization
  is still in use, and then leaves all rows but its own.
-/
theorem deleteOrgData_spec (db : OrgDb) (orgId : String) :
    (GroupShared db.rows orgId →
      deleteOrgData db orgId = none) ∧
    (¬ GroupShared db.rows orgId →
      ∃ db' counts,
        deleteOrgData db orgId = some (db', counts) ∧
          ∀ table,
            db'.rows table =
              (db.rows table).filter
                (fun row => !gone db.rows orgId table row)) := by
  rcases deleteOrgData_eq db orgId with
    ⟨first, counts, hFirst, hDelete⟩
  have hGroups :
      first.rows .cameraGroups = db.rows .cameraGroups := by
    rw [hFirst]
    exact List.filter_eq_self.mpr (fun _ _ => rfl)
  constructor
  · rintro ⟨camera, hCamera, hStays, group, hGroup, hOwn, hIn⟩
    have hCameraFirst : camera ∈ first.rows .cameras := by
      rw [hFirst]
      refine List.mem_filter.mpr ⟨hCamera, ?_⟩
      rw [Bool.not_eq_true']
      exact hStays
    rw [hDelete,
      deleteScoped_eq_none (by decide) (by decide)
        hCameraFirst (hGroups.symm ▸ hGroup) hOwn hIn]
    rfl
  · intro hShared
    have hFree : GroupsFree first.rows orgId := by
      intro camera hCamera group hGroup hSame
      rw [hFirst, List.mem_filter, Bool.not_eq_true'] at hCamera
      by_contra hOwn
      exact hShared
        ⟨camera, hCamera.1, hCamera.2, group, hGroups ▸ hGroup,
          (Bool.not_eq_false _).mp hOwn, hSame⟩
    have hTables :
        ∀ table ∈ orgScopedTables,
          table ≠ .incidents ∧ table ≠ .cameraNodes := by
      decide
    rcases deleteScoped_eq_some hTables hFree with
      ⟨db', others, hScoped, hRows⟩
    refine ⟨db', counts ++ others, ?_, ?_⟩
    · rw [hDelete, hScoped]
      rfl
    · intro table
      rw [hRows, hFirst, List.filter_filter]
      apply List.filter_congr
      intro row hRow
      rw [gone_eq, Bool.not_or, Bool.and_comm]

--------------------
-- Exactness
--------------------

/- The node and the group of a camera are of its own org. -/
structure OwnLinks (rows : Rows Table) : Prop where
  node :
    ∀ camera ∈ rows .cameras, ∀ node ∈ rows .cameraNodes,
      (camera.cell "node_id").same (node.cell "id") = true →
        camera.cell "org_id" = node.cell "org_id"
  group :
    ∀ camera ∈ rows .cameras, ∀ group ∈ rows .cameraGroups,
      (camera.cell "group_id").same (group.cell "id") = true →
        camera.cell "org_id" = group.cell "org_id"

/- By its own `org_id`, or by that of its incident. -/
def belongs
    (rows : Rows Table)
    (orgId : String) :
    Table → Row → Bool
| .incidentEvidence, row => ofOwnIncident rows orgId row
| .emailSuppression, _ => false
| .processedWebhooks, _ => false
| _, row => inOrg orgId row

/-
  Nothing of the organization is left, also on none of its
  nodes, and every other one has its rows, in their order.
-/
structure ErasedExactly
    (before after : Rows Table)
    (orgId : String) : Prop where
  erased :
    ∀ table, ∀ row ∈ after table,
      belongs after orgId table row = false ∧
        gone after orgId table row = false
  others :
    ∀ other, other ≠ orgId → ∀ table,
      (after table).filter (belongs after other table) =
        (before table).filter (belongs before other table)
  unscoped :
    ∀ table,
      table = .emailSuppression ∨ table = .processedWebhooks →
        after table = before table

theorem inOrg_iff {row : Row} :
    inOrg orgId row = true ↔
      row.cell "org_id" = .text orgId := by
  unfold inOrg Row.has
  rw [Cell.same_iff]
  constructor
  · exact And.left
  · intro hEq
    exact ⟨hEq, by rw [hEq]; exact Cell.noConfusion⟩

theorem inOrg_other
    {other : String}
    {row : Row}
    (hNe : other ≠ orgId)
    (hOther : inOrg other row = true) :
    inOrg orgId row = false := by
  by_contra hIn
  rw [Bool.not_eq_false, inOrg_iff] at hIn
  rw [inOrg_iff, hIn] at hOther
  exact hNe (Cell.text.inj hOther).symm

theorem onOwnNode_iff
    {rows : Rows Table}
    {camera : Row} :
    onOwnNode rows orgId camera = true ↔
      ∃ node ∈ rows .cameraNodes, inOrg orgId node = true ∧
        (camera.cell "node_id").same (node.cell "id") =
          true := by
  unfold onOwnNode
  rw [List.any_eq_true]
  simp only [List.mem_filter, and_assoc]

theorem ofOwnIncident_iff
    {rows : Rows Table}
    {evidence : Row} :
    ofOwnIncident rows orgId evidence = true ↔
      ∃ incident ∈ rows .incidents,
        inOrg orgId incident = true ∧
          (evidence.cell "incident_id").same
            (incident.cell "id") = true := by
  unfold ofOwnIncident
  rw [List.any_eq_true]
  simp only [List.mem_filter, and_assoc]

/- What hangs from a node of the organization is its own. -/
theorem gone_eq_belongs
    {rows : Rows Table}
    (hOwn : OwnLinks rows)
    {table : Table}
    {row : Row}
    (hRow : row ∈ rows table) :
    gone rows orgId table row =
      belongs rows orgId table row := by
  cases table with
  | cameras =>
      have hInOrg :
          onOwnNode rows orgId row = true →
            inOrg orgId row = true := by
        intro hNode
        rcases onOwnNode_iff.mp hNode with
          ⟨node, hNode, hIn, hSame⟩
        rw [inOrg_iff] at hIn ⊢
        exact (hOwn.node row hRow node hNode hSame).trans hIn
      simp only [gone, belongs]
      cases hNode : onOwnNode rows orgId row with
      | false => exact Bool.false_or _
      | true => rw [hInOrg hNode]; rfl
  | _ => rfl

theorem not_groupShared
    {rows : Rows Table}
    (hOwn : OwnLinks rows) :
    ¬ GroupShared rows orgId := by
  rintro ⟨camera, hCamera, hStays, group, hGroup, hIn, hSame⟩
  have hCameraOrg : inOrg orgId camera = true := by
    rw [inOrg_iff] at hIn ⊢
    exact (hOwn.group camera hCamera group hGroup hSame).trans
      hIn
  simp only [gone, hCameraOrg, Bool.or_true,
    Bool.true_eq_false] at hStays

/- The incidents that another organization keeps. -/
theorem ofOwnIncident_other
    {before after : Rows Table}
    {other : String}
    (hNe : other ≠ orgId)
    (hIncidents :
      after .incidents =
        (before .incidents).filter
          (fun row => !inOrg orgId row)) :
    ofOwnIncident after other = ofOwnIncident before other := by
  have hSame :
      (after .incidents).filter (inOrg other) =
        (before .incidents).filter (inOrg other) := by
    rw [hIncidents, List.filter_filter]
    apply List.filter_congr
    intro row hRow
    cases hOther : inOrg other row with
    | false => rfl
    | true => rw [inOrg_other hNe hOther]; rfl
  funext evidence
  unfold ofOwnIncident
  rw [hSame]

/- Evidence is of one organization only. -/
theorem ofOwnIncident_apart
    (db : OrgDb)
    {other : String}
    {evidence : Row}
    (hNe : other ≠ orgId)
    (hOther :
      ofOwnIncident db.rows other evidence = true) :
    ofOwnIncident db.rows orgId evidence = false := by
  by_contra hOwn
  rw [Bool.not_eq_false] at hOwn
  rcases ofOwnIncident_iff.mp hOther with
    ⟨first, hFirst, hInFirst, hRefersFirst⟩
  rcases ofOwnIncident_iff.mp hOwn with
    ⟨second, hSecond, hInSecond, hRefersSecond⟩
  have hOne :=
    eq_of_refers db hFirst hSecond hRefersFirst hRefersSecond
  subst hOne
  rw [inOrg_other hNe hInFirst] at hInSecond
  contradiction

theorem erasedExactly_of_filter
    (db : OrgDb)
    {after : Rows Table}
    (hAfter :
      ∀ table,
        after table =
          (db.rows table).filter
            (fun row => !gone db.rows orgId table row))
    (hOwn : OwnLinks db.rows) :
    ErasedExactly db.rows after orgId where
  erased := by
    have hGone (table : Table) (row : Row)
        (hRow : row ∈ after table) :
        gone db.rows orgId table row = false := by
      rw [hAfter, List.mem_filter, Bool.not_eq_true'] at hRow
      exact hRow.2
    have hEvidence (row : Row) :
        ofOwnIncident after orgId row = false := by
      by_contra hOwnIncident
      rw [Bool.not_eq_false, ofOwnIncident_iff] at hOwnIncident
      rcases hOwnIncident with ⟨incident, hIncident, hIn, -⟩
      have hOut := hGone .incidents incident hIncident
      simp only [gone, hIn, Bool.true_eq_false] at hOut
    have hNode (row : Row) :
        onOwnNode after orgId row = false := by
      by_contra hOwnNode
      rw [Bool.not_eq_false, onOwnNode_iff] at hOwnNode
      rcases hOwnNode with ⟨node, hNode, hIn, -⟩
      have hOut := hGone .cameraNodes node hNode
      simp only [gone, hIn, Bool.true_eq_false] at hOut
    intro table row hRow
    have hBefore := hGone table row hRow
    cases table with
    | incidentEvidence => exact ⟨hEvidence row, hEvidence row⟩
    | cameras =>
        have hOut := (Bool.or_eq_false_iff.mp hBefore).2
        exact ⟨hOut, Bool.or_eq_false_iff.mpr
          ⟨hNode row, hOut⟩⟩
    | _ => exact ⟨hBefore, hBefore⟩
  others := by
    intro other hNe table
    have hOne := ofOwnIncident_other hNe (hAfter .incidents)
    rw [hAfter, List.filter_filter]
    apply List.filter_congr
    intro row hRow
    rw [gone_eq_belongs hOwn hRow]
    cases table with
    | incidentEvidence =>
        simp only [belongs, hOne]
        cases hOther : ofOwnIncident db.rows other row with
        | false => rfl
        | true => rw [ofOwnIncident_apart db hNe hOther]; rfl
    | emailSuppression => rfl
    | processedWebhooks => rfl
    | _ =>
        simp only [belongs]
        cases hOther : inOrg other row with
        | false => rfl
        | true => rw [inOrg_other hNe hOther]; rfl
  unscoped := by
    intro table hTable
    rw [hAfter]
    rcases hTable with rfl | rfl <;>
      exact List.filter_eq_self.mpr (fun _ _ => rfl)

/-
  With every camera's node and group in its own organization
  an erasure goes through, takes all of the organization and
  nothing else.
-/
theorem erasure_exact
    (db : OrgDb)
    (orgId : String)
    (hOwn : OwnLinks db.rows) :
    ∃ db' counts,
      deleteOrgData db orgId = some (db', counts) ∧
        ErasedExactly db.rows db'.rows orgId := by
  rcases (deleteOrgData_spec db orgId).2
      (not_groupShared hOwn) with
    ⟨db', counts, hDelete, hRows⟩
  exact ⟨db', counts, hDelete,
    erasedExactly_of_filter db hRows hOwn⟩

def orgRow
    (id : Int)
    (orgId : String)
    (columns : Row) : Row :=
  [("id", .int id), ("org_id", .text orgId)] ++ columns

/- Two organizations, one with a camera without a node. -/
def twoOrgsRows : Rows Table
| .settings => [orgRow 1 "org" [], orgRow 2 "other" []]
| .cameraGroups => [orgRow 1 "org" [], orgRow 2 "other" []]
| .cameraNodes =>
    [orgRow 1 "org" [("node_id", .text "attic")],
      orgRow 2 "other" [("node_id", .text "barn")]]
| .cameras =>
    [orgRow 1 "org"
        [("camera_id", .text "door"), ("node_id", .int 1),
          ("group_id", .int 1)],
      orgRow 2 "other"
        [("camera_id", .text "gate"), ("node_id", .int 2),
          ("group_id", .int 2)],
      orgRow 3 "org" [("camera_id", .text "shed")]]
| .incidents => [orgRow 1 "org" [], orgRow 2 "other" []]
| .incidentEvidence =>
    [[("id", .int 1), ("incident_id", .int 1)],
      [("id", .int 2), ("incident_id", .int 2)]]
| _ => []

def twoOrgs : OrgDb where
  rows := twoOrgsRows
  conforms := ⟨by decide, by decide, by decide⟩

theorem erasure_exact_twoOrgs :
    ∃ db' counts,
      deleteOrgData twoOrgs "org" = some (db', counts) ∧
        ErasedExactly twoOrgs.rows db'.rows "org" :=
  erasure_exact twoOrgs "org" ⟨by decide, by decide⟩

--------------------
-- The Export
--------------------

theorem mem_cameraSelect
    {rows : Rows Table}
    {nodeId : Cell}
    {camera : Row} :
    camera ∈ cameraSelect rows nodeId ↔
      camera ∈ rows .cameras ∧
        ∃ node ∈ rows .cameraNodes,
          (node.cell "id").same (camera.cell "node_id") =
              true ∧
            Row.has "node_id" nodeId node = true := by
  unfold cameraSelect
  simp only [List.mem_map, List.mem_filter,
    Option.any_eq_true]
  constructor
  · rintro ⟨⟨⟨first, found⟩, group⟩, ⟨hJoin, node, hSome, hHas⟩,
      rfl⟩
    dsimp only at hSome
    subst hSome
    rcases mem_leftJoin_some.mp
        (exists_mem_leftJoin.mp ⟨group, hJoin⟩) with
      ⟨hCamera, hNode, hOn⟩
    exact ⟨hCamera, node, hNode, hOn, hHas⟩
  · rintro ⟨hCamera, node, hNode, hOn, hHas⟩
    have hPair :
        (camera, some node) ∈
          leftJoin
            (fun camera node =>
              (node.cell "id").same (camera.cell "node_id"))
            (rows .cameras) (rows .cameraNodes) :=
      mem_leftJoin_some.mpr ⟨hCamera, hNode, hOn⟩
    rcases exists_mem_leftJoin.mpr hPair with ⟨group, hJoin⟩
    exact ⟨((camera, some node), group),
      ⟨hJoin, node, rfl, hHas⟩, rfl⟩

/- The cameras of the export are those on the nodes. -/
theorem mem_exported_cameras
    (db : OrgDb)
    {camera : Row} :
    (∃ node ∈ (db.rows .cameraNodes).filter (inOrg orgId),
      camera ∈ cameraSelect db.rows (node.cell "node_id")) ↔
      camera ∈ db.rows .cameras ∧
        onOwnNode db.rows orgId camera = true := by
  simp only [List.mem_filter, mem_cameraSelect, onOwnNode_iff]
  constructor
  · rintro ⟨node, ⟨hNode, hIn⟩, hCamera, other, hOther, hOn,
      hHas⟩
    have hDistinct : Distinct "node_id" (db.rows .cameraNodes) :=
      db.conforms.unique (.cameraNodes, "node_id") (by decide)
    have hOne := hDistinct.eq_of_same hOther hNode hHas
    subst hOne
    rw [Cell.same_comm] at hOn
    exact ⟨hCamera, other, hNode, hIn, hOn⟩
  · rintro ⟨hCamera, node, hNode, hIn, hSame⟩
    have hNotNull : node.cell "node_id" ≠ .null :=
      db.conforms.notNull (.cameraNodes, "node_id") (by decide)
        node hNode
    rw [Cell.same_comm] at hSame
    exact ⟨node, ⟨hNode, hIn⟩, hCamera, node, hNode, hSame,
      Cell.same_self hNotNull⟩

/- The rows that the export shows. -/
def shown
    (rows : Rows Table)
    (orgId : String) :
    Table → Row → Bool
| .incidentEvidence, row => ofOwnIncident rows orgId row
| .cameras, row => onOwnNode rows orgId row
| .emailSuppression, _ => false
| .processedWebhooks, _ => false
| _, row => inOrg orgId row

theorem shown_of_scoped
    {rows : Rows Table}
    {table : Table}
    (hScoped : table ∈ orgScopedTables)
    (row : Row) :
    shown rows orgId table row = inOrg orgId row := by
  cases table <;>
    first
    | rfl
    | exact absurd hScoped (by decide)

theorem exported_iff
    (db : OrgDb)
    {table : Table}
    {row : Row} :
    Exported db.rows orgId table row ↔
      row ∈ db.rows table ∧
        shown db.rows orgId table row = true := by
  unfold Exported exportOrgData
  constructor
  · rintro ⟨file, hFile, rfl, hRow⟩
    rcases List.mem_append.mp hFile with hScoped | hOther
    · rcases List.mem_map.mp hScoped with ⟨table, hTable, rfl⟩
      rw [shown_of_scoped hTable]
      exact List.mem_filter.mp hRow
    · simp only [List.mem_cons, List.not_mem_nil, or_false]
        at hOther
      rcases hOther with rfl | rfl | rfl | rfl
      · exact List.mem_filter.mp hRow
      · rcases List.mem_flatMap.mp hRow with
          ⟨incident, hIncident, hIn⟩
        rw [List.mem_filter] at hIncident hIn
        exact ⟨hIn.1, ofOwnIncident_iff.mpr
          ⟨incident, hIncident.1, hIncident.2, hIn.2⟩⟩
      · exact List.mem_filter.mp hRow
      · exact (mem_exported_cameras db).mp
          (List.mem_flatMap.mp hRow)
  · rintro ⟨hRow, hShown⟩
    have hScoped (hTable : table ∈ orgScopedTables) :
        ∃ file ∈ exportOrgData db.rows orgId,
          file.1 = table ∧ row ∈ file.2 := by
      rw [shown_of_scoped hTable] at hShown
      exact ⟨_,
        List.mem_append_left _
          (List.mem_map.mpr ⟨table, hTable, rfl⟩),
        rfl, List.mem_filter.mpr ⟨hRow, hShown⟩⟩
    cases table with
    | incidents =>
        refine ⟨(.incidents, _),
          List.mem_append_right _ List.mem_cons_self, rfl, ?_⟩
        exact List.mem_filter.mpr ⟨hRow, hShown⟩
    | incidentEvidence =>
        rcases ofOwnIncident_iff.mp hShown with
          ⟨incident, hIncident, hIn, hSame⟩
        refine ⟨(.incidentEvidence, _),
          List.mem_append_right _
            (List.mem_cons_of_mem _ List.mem_cons_self),
          rfl, ?_⟩
        refine List.mem_flatMap.mpr
          ⟨incident, List.mem_filter.mpr ⟨hIncident, hIn⟩, ?_⟩
        exact List.mem_filter.mpr ⟨hRow, hSame⟩
    | cameraNodes =>
        refine ⟨(.cameraNodes, _),
          List.mem_append_right _
            (List.mem_cons_of_mem _
              (List.mem_cons_of_mem _ List.mem_cons_self)),
          rfl, ?_⟩
        exact List.mem_filter.mpr ⟨hRow, hShown⟩
    | cameras =>
        refine ⟨(.cameras, _),
          List.mem_append_right _
            (List.mem_cons_of_mem _
              (List.mem_cons_of_mem _
                (List.mem_cons_of_mem _ List.mem_cons_self))),
          rfl, ?_⟩
        exact List.mem_flatMap.mpr
          ((mem_exported_cameras db).mpr ⟨hRow, hShown⟩)
    | emailSuppression => exact absurd hShown (by simp [shown])
    | processedWebhooks => exact absurd hShown (by simp [shown])
    | _ => exact hScoped (by decide)

--------------------
-- Coverage
--------------------

/- The tables that are exported and erased. -/
def coveredTables : List Table :=
  orgTables ++ [.incidentEvidence]

/- Every row that an erasure takes is in the export. -/
def ExportCovers (db : OrgDb) (orgId : String) : Prop :=
  ∀ db' counts,
    deleteOrgData db orgId = some (db', counts) →
      ∀ table ∈ coveredTables, ∀ row ∈ db.rows table,
        row ∉ db'.rows table →
          Exported db.rows orgId table row

/- Every camera of the organization is on one of its nodes. -/
def CamerasOnNodes (rows : Rows Table) (orgId : String) : Prop :=
  ∀ camera ∈ rows .cameras,
    inOrg orgId camera = true →
      onOwnNode rows orgId camera = true

instance (rows : Rows Table) (orgId : String) :
    Decidable (CamerasOnNodes rows orgId) :=
  inferInstanceAs (Decidable (∀ camera ∈ rows .cameras, _))

/- The two only differ in the cameras without such a node. -/
theorem shown_of_gone
    {rows : Rows Table}
    (hCameras : CamerasOnNodes rows orgId)
    {table : Table}
    {row : Row}
    (hRow : row ∈ rows table)
    (hGone : gone rows orgId table row = true) :
    shown rows orgId table row = true := by
  cases table with
  | cameras =>
      rcases Bool.or_eq_true _ _ ▸ hGone with hNode | hIn
      · exact hNode
      · exact hCameras row hRow hIn
  | _ => exact hGone

/-
  The export shows all that an erasure takes exactly when
  every camera of the organization is on one of its nodes or
  the erasure is refused for a group in use.
-/
theorem export_covers_iff (db : OrgDb) (orgId : String) :
    ExportCovers db orgId ↔
      CamerasOnNodes db.rows orgId ∨
        GroupShared db.rows orgId := by
  have hSpec := deleteOrgData_spec db orgId
  constructor
  · intro hCovers
    by_cases hShared : GroupShared db.rows orgId
    · exact Or.inr hShared
    · left
      rcases hSpec.2 hShared with ⟨db', counts, hDelete, hRows⟩
      intro camera hCamera hIn
      have hTaken : camera ∉ db'.rows .cameras := by
        rw [hRows, List.mem_filter]
        simp [gone, hIn]
      have hExported :=
        hCovers db' counts hDelete .cameras (by decide) camera
          hCamera hTaken
      exact ((exported_iff db).mp hExported).2
  · rintro (hCameras | hShared)
    · intro db' counts hDelete table hTable row hRow hTaken
      by_cases hShared : GroupShared db.rows orgId
      · rw [hSpec.1 hShared] at hDelete
        contradiction
      · rcases hSpec.2 hShared with ⟨last, all, hSame, hRows⟩
        rw [hSame] at hDelete
        have hLast : last = db' :=
          (Prod.mk.inj (Option.some.inj hDelete)).1
        rw [← hLast, hRows, List.mem_filter, not_and,
          Bool.not_eq_true', Bool.not_eq_false] at hTaken
        exact (exported_iff db).mpr
          ⟨hRow, shown_of_gone hCameras hRow (hTaken hRow)⟩
    · intro db' counts hDelete
      rw [hSpec.1 hShared] at hDelete
      contradiction

/- The camera without a node is erased and not exported. -/
theorem stray_camera_not_exported :
    ¬ ExportCovers twoOrgs "org" := by
  intro hCovers
  have hShared : ¬ GroupShared twoOrgs.rows "org" := by decide
  rcases (deleteOrgData_spec twoOrgs "org").2 hShared with
    ⟨db', counts, hDelete, hRows⟩
  have hTaken :
      orgRow 3 "org" [("camera_id", .text "shed")] ∉
        db'.rows .cameras := by
    rw [hRows]
    decide
  have hExported :=
    hCovers db' counts hDelete .cameras (by decide) _
      (by decide) hTaken
  exact absurd ((exported_iff twoOrgs).mp hExported).2
    (by decide)

end Gdpr

end SentinelCommand
