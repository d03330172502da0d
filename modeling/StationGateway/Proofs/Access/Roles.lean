import Mathlib
import StationGateway.Access.Caller
import StationGateway.Proofs.Access.Claims
import StationGateway.Proofs.Order.FirstOccurrence
import StationGateway.Proofs.Outcome
import StationGateway.Proofs.Text.Split
import StationGateway.Quota.Plan

/-!
# What the roles of a caller allow

Three parts of the gateway ask whether a caller is an administrator: its roles, the conditions on
rows and its plan. They agree, and the answer depends on a single grant. The roles of everybody else
are the names of the grants, each once, in the order in which they have been granted first.
-/

namespace StationGateway.Access

open Text

/-- The grant that makes an administrator. -/
def Claims.GrantsAdmin (claims : Claims) : Prop :=
  "ODH_ROLE_ADMIN" ∈ claims.realmRoles ∨
    ∃ client ∈ claims.clientRoles, "ODH_ROLE_ADMIN" ∈ client.2

variable {grants : List String} {name : String}

/-! ## Names of roles -/

private theorem roleName_eq_some_iff {grant : String} :
    (stripStart? rolePrefix.toList grant.toList).map String.ofList = some name ↔
      grant = rolePrefix ++ name := by
  rw [Option.map_eq_some_iff]
  constructor
  · rintro ⟨rest, rest_eq, rfl⟩
    rw [stripStart?_eq_some_iff] at rest_eq
    rw [← String.toList_inj, String.toList_append, String.toList_ofList, rest_eq]
  · rintro rfl
    exact ⟨name.toList, stripStart?_eq_some_iff.mpr String.toList_append, String.ofList_toList⟩

theorem mem_roleNames : name ∈ roleNames grants ↔ rolePrefix ++ name ∈ grants := by
  rw [roleNames, List.mem_filterMap]
  constructor
  · rintro ⟨grant, member, name_eq⟩
    exact roleName_eq_some_iff.mp name_eq ▸ member
  · exact fun member => ⟨_, member, roleName_eq_some_iff.mpr rfl⟩

/-- Names that are told apart stand in the order in which they have been granted first. -/
theorem pairwise_eraseDups_roleNames (grants : List String) :
    (roleNames grants).eraseDups.Pairwise fun earlier later =>
      grants.idxOf (rolePrefix ++ earlier) < grants.idxOf (rolePrefix ++ later) := by
  induction grants using List.reverseRecOn with
  | nil => exact List.Pairwise.nil
  | append_singleton grants grant induction =>
      have known : ∀ {found}, found ∈ (roleNames grants).eraseDups →
          (grants ++ [grant]).idxOf (rolePrefix ++ found) = grants.idxOf (rolePrefix ++ found) :=
        fun member => List.idxOf_append_of_mem (mem_roleNames.mp (List.mem_eraseDups.mp member))
      have before : (roleNames grants).eraseDups.Pairwise fun earlier later =>
          (grants ++ [grant]).idxOf (rolePrefix ++ earlier) <
            (grants ++ [grant]).idxOf (rolePrefix ++ later) := by
        refine induction.imp_of_mem fun earlier_in later_in lt => ?_
        rwa [known earlier_in, known later_in]
      cases is_role : (stripStart? rolePrefix.toList grant.toList).map String.ofList with
      | none =>
          have names_eq : roleNames (grants ++ [grant]) = roleNames grants := by
            simp [roleNames, is_role]
          rwa [names_eq]
      | some name =>
          have names_eq : roleNames (grants ++ [grant]) = roleNames grants ++ [name] := by
            simp [roleNames, is_role]
          rw [names_eq, Order.eraseDups_concat]
          split_ifs with member
          · exact before
          · have grant_eq := roleName_eq_some_iff.mp is_role
            have grant_new : grant ∉ grants := fun found =>
              member (mem_roleNames.mpr (grant_eq ▸ found))
            refine List.pairwise_append.mpr
              ⟨before, List.pairwise_singleton _ _, fun earlier earlier_in later later_in => ?_⟩
            obtain rfl := List.mem_singleton.mp later_in
            rw [known earlier_in, ← grant_eq, List.idxOf_append_of_notMem grant_new]
            have earlier_lt := List.idxOf_lt_length_of_mem
              (mem_roleNames.mp (List.mem_eraseDups.mp earlier_in))
            omega

/-! ## Roles -/

theorem grantsAdmin_iff (claims : Claims) :
    claims.GrantsAdmin ↔ adminRole ∈ roleNames claims.grants := by
  rw [mem_roleNames, Claims.GrantsAdmin, Claims.grants, List.mem_append, List.mem_flatMap]
  rfl

theorem rolesOf_of_admin (is_admin : adminRole ∈ roleNames grants) : rolesOf grants = [adminRole] :=
  if_pos (List.contains_iff_mem.mpr is_admin)

/-- The roles of somebody who is no administrator. -/
structure OrdinaryRoles (grants roles : List String) : Prop where
  /-- No role is there twice. -/
  nodup : roles.Nodup
  /-- Everybody is a guest. -/
  guest : guestRole ∈ roles
  /-- The other roles are those that have been granted, without what they begin with. -/
  mem_iff : ∀ name, name ≠ guestRole → (name ∈ roles ↔ rolePrefix ++ name ∈ grants)
  /-- A role that has been granted comes after those that have been granted before it only. -/
  ordered : roles.Pairwise fun earlier later => rolePrefix ++ later ∈ grants →
    grants.idxOf (rolePrefix ++ earlier) < grants.idxOf (rolePrefix ++ later)

theorem ordinaryRoles_rolesOf (not_admin : adminRole ∉ roleNames grants) :
    OrdinaryRoles grants (rolesOf grants) := by
  have ordered := pairwise_eraseDups_roleNames grants
  have nodup := Order.nodup_eraseDups (roleNames grants)
  have ordered_granted : (roleNames grants).eraseDups.Pairwise fun earlier later =>
      rolePrefix ++ later ∈ grants →
        grants.idxOf (rolePrefix ++ earlier) < grants.idxOf (rolePrefix ++ later) := by
    refine ordered.imp fun lt granted => ?_
    exact lt
  rw [rolesOf, if_neg (by simpa using not_admin)]
  dsimp only
  split_ifs with is_guest
  · rw [List.contains_iff_mem] at is_guest
    exact
      { nodup, guest := is_guest
        mem_iff := fun name _ => List.mem_eraseDups.trans mem_roleNames
        ordered := ordered_granted }
  · rw [List.contains_iff_mem] at is_guest
    refine
      { nodup := List.nodup_append.mpr
          ⟨nodup, List.nodup_singleton _, fun found found_in guest guest_in => ?_⟩
        guest := List.mem_append_right _ List.mem_cons_self
        mem_iff := fun name ne => ?_
        ordered := List.pairwise_append.mpr
          ⟨ordered_granted, List.pairwise_singleton _ _,
            fun found found_in guest guest_in granted => ?_⟩ }
    · obtain rfl := List.mem_singleton.mp guest_in
      exact fun same => is_guest (same ▸ found_in)
    · rw [List.mem_append, List.mem_singleton, or_iff_left ne, List.mem_eraseDups, mem_roleNames]
    · obtain rfl := List.mem_singleton.mp guest_in
      exact absurd (List.mem_eraseDups.mpr (mem_roleNames.mpr granted)) is_guest

theorem adminRole_mem_rolesOf : adminRole ∈ rolesOf grants ↔ adminRole ∈ roleNames grants := by
  by_cases is_admin : adminRole ∈ roleNames grants
  · simp [rolesOf_of_admin is_admin, is_admin]
  · rw [(ordinaryRoles_rolesOf is_admin).mem_iff adminRole (by decide), mem_roleNames]

theorem rolesOf_eq_admin_iff : rolesOf grants = [adminRole] ↔ adminRole ∈ roleNames grants := by
  refine ⟨fun roles_eq => adminRole_mem_rolesOf.mp ?_, rolesOf_of_admin⟩
  rw [roles_eq]
  exact List.mem_singleton_self adminRole

/-! ## What roles allow -/

/-- Only administrators see all rows. -/
theorem condition?_eq_none_iff (files : RuleFiles) (rows : RowClass) (roles : List String) :
    files.condition? rows roles = .ok none ↔ adminRole ∈ roles := by
  rw [RuleFiles.condition?]
  by_cases is_admin : adminRole ∈ roles
  · rw [if_pos (List.contains_iff_mem.mpr is_admin)]
    exact iff_of_true rfl is_admin
  · rw [if_neg (by simpa using is_admin)]
    refine iff_of_false (fun condition_eq => ?_) is_admin
    obtain ⟨rules, -, chosen⟩ := Outcome.bind_eq_ok_iff.mp condition_eq
    split at chosen <;> cases chosen

/-- Only administrators have no limits. -/
theorem resolve_eq_unrestricted_iff (roles : List String) (subject referer : Option String) :
    Quota.Plan.resolve roles subject referer = .unrestricted ↔ adminRole ∈ roles := by
  rw [Quota.Plan.resolve]
  by_cases is_admin : adminRole ∈ roles
  · rw [if_pos (List.contains_iff_mem.mpr is_admin)]
    exact iff_of_true rfl is_admin
  · rw [if_neg (by simpa using is_admin)]
    refine iff_of_false ?_ is_admin
    split_ifs <;> decide

/-- What the claims about a caller decide. -/
structure Privileges (claims : Claims) (caller : Caller) : Prop where
  /-- An administrator has no other role. -/
  admin_iff : caller.roles = [adminRole] ↔ claims.GrantsAdmin
  /-- An administrator sees all rows of each class, whatever the rules are. -/
  sees_all_iff : ∀ (files : RuleFiles) (rows : RowClass),
    files.condition? rows caller.roles = .ok none ↔ claims.GrantsAdmin
  /-- An administrator is never limited. -/
  unlimited_iff : Quota.Plan.resolve caller.roles caller.subject caller.referer = .unrestricted ↔
    claims.GrantsAdmin
  /-- Everybody else has the roles that have been granted and is a guest. -/
  ordinary : ¬claims.GrantsAdmin → OrdinaryRoles claims.grants caller.roles
  /-- The clients stand in the order of their names. -/
  clients_ascending : Order.Ascending claims.clientRoles

/-- Nothing but one grant makes the sender of a request an administrator. -/
theorem privileges_ofRequest (headers : Headers) (uri : Uri) :
    Privileges ((claimsOf? headers).getD .none) (Caller.ofRequest headers uri) := by
  have roles_eq : (Caller.ofRequest headers uri).roles =
      rolesOf ((claimsOf? headers).getD .none).grants := rfl
  refine
    { admin_iff := ?_
      sees_all_iff := fun files rows => ?_
      unlimited_iff := ?_
      ordinary := fun not_admin => ?_
      clients_ascending := ?_ }
  · rw [roles_eq, rolesOf_eq_admin_iff, grantsAdmin_iff]
  · rw [condition?_eq_none_iff, roles_eq, adminRole_mem_rolesOf, grantsAdmin_iff]
  · rw [resolve_eq_unrestricted_iff, roles_eq, adminRole_mem_rolesOf, grantsAdmin_iff]
  · rw [grantsAdmin_iff] at not_admin
    rw [roles_eq]
    exact ordinaryRoles_rolesOf not_admin
  · cases claims_eq : claimsOf? headers with
    | none => exact Order.ascending_nil
    | some claims =>
        obtain ⟨value, -, read⟩ := Option.bind_eq_some_iff.mp claims_eq
        obtain ⟨token, -, read⟩ := Option.bind_eq_some_iff.mp read
        exact Claims.ascending_of_ofToken? read

end StationGateway.Access
