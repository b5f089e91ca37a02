import Telemux.TelemtSync.NodeState

/-!
# Spellings of a timestamp

A node may spell an expiration in another way than it was given.  Two spellings
are the same to the diff when they stand for the same instant, and the diff does
not depend on which of them it is shown.
-/

namespace Telemux
namespace TelemtSync

open Reconcile

variable [RFC3339]

/-!
## An equivalence
-/

theorem expirationEquals_some_iff {a b : String} :
    ExpirationEquals (some a) (some b) = true <->
      a = b ∨ exists t, RFC3339.parse a = some t ∧ RFC3339.parse b = some t := by
  unfold ExpirationEquals
  by_cases hab : a = b
  · simp [hab]
  · dsimp only
    rw [if_neg hab]
    cases RFC3339.parse a with
    | none => simp [hab]
    | some ta =>
        cases RFC3339.parse b with
        | none => simp [hab]
        | some tb => simp [hab, eq_comm]

theorem expirationEquals_symm {a b : Option String} (h : ExpirationEquals a b = true) :
    ExpirationEquals b a = true := by
  cases a with
  | none =>
      cases b with
      | none => rfl
      | some b => cases h
  | some a =>
      cases b with
      | none => cases h
      | some b =>
          rw [expirationEquals_some_iff] at h ⊢
          rcases h with rfl | ⟨t, ha, hb⟩
          · exact Or.inl rfl
          · exact Or.inr ⟨t, hb, ha⟩

theorem expirationEquals_trans {a b c : Option String} (hab : ExpirationEquals a b = true)
    (hbc : ExpirationEquals b c = true) : ExpirationEquals a c = true := by
  cases a with
  | none =>
      cases b with
      | none => exact hbc
      | some b => cases hab
  | some a =>
      cases b with
      | none => cases hab
      | some b =>
          cases c with
          | none => cases hbc
          | some c =>
              rw [expirationEquals_some_iff] at hab hbc ⊢
              rcases hab with rfl | ⟨t, ha, hb⟩
              · exact hbc
              · rcases hbc with rfl | ⟨t', hb', hc⟩
                · exact Or.inr ⟨t, ha, hb⟩
                · rw [hb] at hb'
                  cases hb'
                  exact Or.inr ⟨t, ha, hc⟩

theorem expirationEquals_equivalence :
    Equivalence fun a b => ExpirationEquals a b = true where
  refl := expirationEquals_refl
  symm := expirationEquals_symm
  trans := expirationEquals_trans

theorem expirationEquals_congr {a a' b b' : Option String}
    (ha : ExpirationEquals a a' = true) (hb : ExpirationEquals b b' = true) :
    ExpirationEquals a b = ExpirationEquals a' b' := by
  rw [Bool.eq_iff_iff]
  constructor
  · intro hab
    exact expirationEquals_trans (expirationEquals_trans (expirationEquals_symm ha) hab) hb
  · intro hab
    exact expirationEquals_trans (expirationEquals_trans ha hab) (expirationEquals_symm hb)

/-!
## Users and operations
-/

structure RemoteRespelled (r r' : RemoteUser) : Prop where
  username : r'.username = r.username
  enabled : r'.enabled = r.enabled
  expiration : ExpirationEquals r.expirationRFC3339 r'.expirationRFC3339 = true
  conns : r'.maxTCPConns = r.maxTCPConns

structure DesiredRespelled (d d' : DesiredUser) : Prop where
  username : d'.username = d.username
  secret : d'.secret = d.secret
  expiration : ExpirationEquals d.expirationRFC3339 d'.expirationRFC3339 = true
  conns : d'.maxTCPConns = d.maxTCPConns

structure OpRespelled (op op' : SyncOp) : Prop where
  kind : op'.kind = op.kind
  username : op'.username = op.username
  secret : op'.secret = op.secret
  expiration : ExpirationEquals op.expirationRFC3339 op'.expirationRFC3339 = true
  conns : op'.maxTCPConns = op.maxTCPConns
  set_expiration : op'.fields.setExpiration = op.fields.setExpiration
  patch_expiration :
    ExpirationEquals op.fields.expirationRFC3339 op'.fields.expirationRFC3339 = true
  set_conns : op'.fields.setMaxTCPConns = op.fields.setMaxTCPConns
  patch_conns : op'.fields.maxTCPConns = op.fields.maxTCPConns
  patch_enabled : op'.fields.enabled = op.fields.enabled

/-!
## Respelling what the node lists
-/

theorem patchFieldsFor_remoteRespelled {r r' : RemoteUser} (h : RemoteRespelled r r')
    (d : DesiredUser) : patchFieldsFor d r' = patchFieldsFor d r := by
  unfold patchFieldsFor
  rw [← expirationEquals_congr (expirationEquals_refl d.expirationRFC3339) h.expiration,
    h.conns, h.enabled]

section Remote

variable {desired : List DesiredUser} {remote remote' : List RemoteUser}

theorem deletes_remoteRespelled (h : List.Forall₂ RemoteRespelled remote remote')
    (pre : String) :
    remote'.filterMap (deleteFor desired pre) = remote.filterMap (deleteFor desired pre) := by
  induction h with
  | nil => rfl
  | @cons r r' _ _ hr _ ih =>
      have hhead : deleteFor desired pre r' = deleteFor desired pre r := by
        unfold deleteFor
        rw [hr.username]
      rw [List.filterMap_cons, List.filterMap_cons, hhead, ih]

theorem computeDiff_remoteRespelled (h : List.Forall₂ RemoteRespelled remote remote')
    (opts : Options) : ComputeDiff desired remote' opts = ComputeDiff desired remote opts := by
  have hlook : forall name, Option.Rel RemoteRespelled (remoteByName remote name)
      (remoteByName remote' name) :=
    fun name => lookup_forall₂ (fun hr => hr.username.symm) h name
  have hcreates : createFor remote' = createFor remote := by
    funext d
    have hfound := hlook d.username
    unfold createFor
    generalize remoteByName remote d.username = found at hfound ⊢
    generalize remoteByName remote' d.username = found' at hfound ⊢
    cases hfound with
    | none => rfl
    | some _ => rfl
  have hpatches : patchFor remote' = patchFor remote := by
    funext d
    have hfound := hlook d.username
    unfold patchFor
    generalize remoteByName remote d.username = found at hfound ⊢
    generalize remoteByName remote' d.username = found' at hfound ⊢
    cases hfound with
    | none => rfl
    | some hr =>
        dsimp only
        rw [patchFieldsFor_remoteRespelled hr]
  unfold ComputeDiff
  rw [hcreates, hpatches, deletes_remoteRespelled h]

end Remote

/-!
## Respelling what is desired
-/

theorem patchFieldsFor_desiredRespelled {d d' : DesiredUser} (h : DesiredRespelled d d')
    (r : RemoteUser) :
    (patchFieldsFor d' r).2 = (patchFieldsFor d r).2 ∧
      OpRespelled (patchOp d.username (patchFieldsFor d r).1)
        (patchOp d'.username (patchFieldsFor d' r).1) := by
  have hset : ExpirationEquals d'.expirationRFC3339 r.expirationRFC3339 =
      ExpirationEquals d.expirationRFC3339 r.expirationRFC3339 :=
    (expirationEquals_congr h.expiration (expirationEquals_refl r.expirationRFC3339)).symm
  unfold patchFieldsFor
  rw [hset, h.conns]
  refine ⟨rfl, rfl, h.username, rfl, rfl, rfl, rfl, ?_, rfl, rfl, rfl⟩
  dsimp only [patchOp]
  split
  · exact h.expiration
  · rfl

section Desired

variable {desired desired' : List DesiredUser} {remote : List RemoteUser}

theorem createFor_desiredRespelled {d d' : DesiredUser} (h : DesiredRespelled d d') :
    Option.Rel OpRespelled (createFor remote d) (createFor remote d') := by
  unfold createFor
  rw [h.username]
  cases remoteByName remote d.username with
  | none =>
      apply Option.Rel.some
      exact ⟨rfl, h.username, h.secret, h.expiration, h.conns, rfl, rfl, rfl, rfl, rfl⟩
  | some _ => exact .none

theorem patchFor_desiredRespelled {d d' : DesiredUser} (h : DesiredRespelled d d') :
    Option.Rel OpRespelled (patchFor remote d) (patchFor remote d') := by
  have hname := h.username
  unfold patchFor
  rw [hname]
  cases remoteByName remote d.username with
  | none => exact .none
  | some r =>
      rcases patchFieldsFor_desiredRespelled h r with ⟨hchanged, hop⟩
      dsimp only
      rw [hchanged]
      rw [hname] at hop
      split
      · exact .some hop
      · exact .none

theorem opRespelled_refl (op : SyncOp) : OpRespelled op op :=
  ⟨rfl, rfl, rfl, expirationEquals_refl _, rfl, rfl, expirationEquals_refl _, rfl, rfl, rfl⟩

theorem computeDiff_desiredRespelled (h : List.Forall₂ DesiredRespelled desired desired')
    (opts : Options) :
    List.Forall₂ OpRespelled (ComputeDiff desired remote opts)
      (ComputeDiff desired' remote opts) := by
  have hlook : forall name, Option.Rel DesiredRespelled (desiredByName desired name)
      (desiredByName desired' name) :=
    fun name => lookup_forall₂ (fun hd => hd.username.symm) h name
  have hdeletes : deleteFor desired' opts.managed = deleteFor desired opts.managed := by
    funext r
    have hfound := hlook r.username
    unfold deleteFor
    generalize desiredByName desired r.username = found at hfound ⊢
    generalize desiredByName desired' r.username = found' at hfound ⊢
    cases hfound with
    | none => rfl
    | some _ => rfl
  unfold ComputeDiff
  rw [hdeletes]
  apply List.rel_append
  · apply List.rel_append
    · exact List.rel_filterMap (fun _ _ hd => createFor_desiredRespelled hd) h
    · exact List.rel_filterMap (fun _ _ hd => patchFor_desiredRespelled hd) h
  · exact List.forall₂_same.mpr fun op _ => opRespelled_refl op

end Desired

/-!
## No drift
-/

/--
Two different texts are one expiration exactly if both stand for one instant.
The diff does not depend on the spelling that the node gives back; the spelling
of what is desired only shows in the values that are written.
-/
theorem no_drift_from_spelling :
    (Equivalence fun a b => ExpirationEquals a b = true) ∧
    (forall a b : String, a ≠ b -> (ExpirationEquals (some a) (some b) = true <->
      exists t, RFC3339.parse a = some t ∧ RFC3339.parse b = some t)) ∧
    (forall desired remote remote' opts, List.Forall₂ RemoteRespelled remote remote' ->
      ComputeDiff desired remote' opts = ComputeDiff desired remote opts) ∧
    (forall desired desired' remote opts, List.Forall₂ DesiredRespelled desired desired' ->
      List.Forall₂ OpRespelled (ComputeDiff desired remote opts)
        (ComputeDiff desired' remote opts)) := by
  refine ⟨expirationEquals_equivalence, ?_, ?_, ?_⟩
  · intro a b hne
    rw [expirationEquals_some_iff]
    simp [hne]
  · intro desired remote remote' opts h
    exact computeDiff_remoteRespelled h opts
  · intro desired desired' remote opts h
    exact computeDiff_desiredRespelled h opts

end TelemtSync
end Telemux
