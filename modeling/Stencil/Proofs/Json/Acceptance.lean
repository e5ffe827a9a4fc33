import Stencil.Proofs.Json.Order

/-!
# Documents are accepted

## Values of what is read

Presented data need not have a value: a key may be no text, or a number too wide.  What is
read from a document always has one, since keys are strings and numbers are scalars.  So
nothing but its text decides whether a document has a value.
-/

namespace Stencil

namespace Presented

def Accepted (p : Presented) : Prop :=
  exists v, p.value = Except.ok v

theorem accepted_row {ps : List Presented} (h : forall p, p ∈ ps -> p.Accepted) :
    (row ps).Accepted := by
  rcases exists_forall₂_iff.mpr h with ⟨vs, hvs⟩
  exact ⟨Value.list vs, value_row_eq_ok_iff.mpr ⟨vs, hvs, rfl⟩⟩

theorem accepted_ofMembers {members : List (Text × Presented)}
    (h : forall member, member ∈ members -> member.2.Accepted) :
    (ofMembers members).Accepted := by
  have hfills : forall pair, pair ∈ members.map (fun member =>
      (scalar (Scalar.str member.1), member.2)) -> exists entry, Fills pair entry := by
    intro pair hmem
    rcases List.mem_map.mp hmem with ⟨member, hmember, rfl⟩
    rcases h member hmember with ⟨v, hv⟩
    exact ⟨(member.1, v), rfl, hv⟩
  rcases exists_forall₂_iff.mpr hfills with ⟨entries, hentries⟩
  exact ⟨_, value_map_eq_ok_iff.mpr ⟨entries, hentries, rfl⟩⟩

end Presented

namespace Json

variable {item : Type} {s after rest : Text} {inner : Reader Presented} {p : Presented}

theorem SplitsRows.forall_mem {reader : Reader item} {rows : Reader (List item)}
    {mark : Char} {xs : List item} {P : item -> Prop}
    (hsplits : SplitsRows reader rows mark)
    (hreader : forall {s after : Text} {x : item}, Gives (reader s) x after -> P x)
    (h : Gives (rows s) xs rest) : forall x, x ∈ xs -> P x := by
  induction xs generalizing s with
  | nil =>
      intro x hmem
      cases hmem
  | cons x xs ih =>
      rcases hsplits.cases h with
        ⟨y, after, hfirst, ⟨heq, _⟩ | ⟨others, ys, heq, _, hothers⟩⟩
      · cases heq
        exact List.forall_mem_singleton.mpr (hreader hfirst)
      · cases heq
        exact List.forall_mem_cons.mpr ⟨hreader hfirst, ih hothers⟩

theorem accepted_list
    (hinner : forall {s after : Text} {p : Presented}, Gives (inner s) p after -> p.Accepted)
    (h : Gives (list inner s) p rest) : p.Accepted := by
  rcases list_cases h with ⟨rfl, _⟩ | ⟨ps, rfl, hitems⟩
  · exact ⟨_, rfl⟩
  · exact Presented.accepted_row ((splitsRows_listItems inner).forall_mem hinner hitems)

theorem accepted_object
    (hinner : forall {s after : Text} {p : Presented}, Gives (inner s) p after -> p.Accepted)
    (h : Gives (object inner s) p rest) : p.Accepted := by
  have hmember : forall {s after : Text} {x : Text × Presented},
      Gives (member inner s) x after -> x.2.Accepted := by
    intro s after x hx
    rcases member_cases hx with ⟨_, _, _, _, _, _, hvalue⟩
    exact hinner hvalue
  rcases object_cases h with ⟨rfl, _⟩ | ⟨entries, rfl, hentries⟩
  · exact ⟨_, rfl⟩
  · exact Presented.accepted_ofMembers
      ((splitsRows_members inner).forall_mem hmember hentries)

variable {inner? : Option (Reader Presented)}

theorem accepted_valueHere
    (hinner : forall inner, inner? = some inner -> forall {s after : Text} {p : Presented},
      Gives (inner s) p after -> p.Accepted)
    (h : Gives (valueHere inner? s) p after) : p.Accepted := by
  cases valueAt_iff.mpr h with
  | number _ _ => exact ⟨_, rfl⟩
  | null => exact ⟨_, rfl⟩
  | bool b => exact ⟨_, rfl⟩
  | quote _ => exact ⟨_, rfl⟩
  | list hsome hlist => exact accepted_list (hinner _ hsome) hlist
  | object hsome hobject => exact accepted_object (hinner _ hsome) hobject

theorem accepted_value {levels : Nat} (h : Gives (value levels s) p after) :
    p.Accepted := by
  induction levels generalizing s p after with
  | zero =>
      refine accepted_valueHere ?_ (valueWith_iff.mp h)
      intro inner hinner
      cases hinner
  | succ levels ih =>
      refine accepted_valueHere ?_ (valueWith_iff.mp h)
      intro inner hinner s after p hp
      cases hinner
      exact ih hp

/-- A text has a value as a document if and only if it can be read to its end. -/
theorem exists_document_iff :
    (exists v, document s = Except.ok v) ↔
      exists p, Spells (value nestingLimit) s p := by
  simp only [document_eq_ok_iff]
  constructor
  · rintro ⟨v, p, hp, _⟩
    exact ⟨p, hp⟩
  · rintro ⟨p, hp⟩
    rcases hp with ⟨after, hread, hafter⟩
    rcases accepted_value hread with ⟨v, hv⟩
    exact ⟨v, p, ⟨after, hread, hafter⟩, hv⟩

end Json

end Stencil
