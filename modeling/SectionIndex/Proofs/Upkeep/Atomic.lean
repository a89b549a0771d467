import SectionIndex.Proofs.Files.Alike
import SectionIndex.Proofs.Upkeep.FirstIndex
import SectionIndex.Upkeep.Action

/-!
# What an operation leaves as it is

An operation on a file works out its outcome and the new text of the file before anything is
written, and nothing is done after the text is written but to tell of it. So a host is as it was
unless the operation succeeds, and then it differs by the bytes of one file. An operation that is
only tried out comes to the same outcome.

## Main definitions

* `Host.ChangesOnly` — hosts that differ by no more than the bytes of one file.
* `Action.Follows` — an action does what a plan says that was worked out first.
* `Action.IsAtomic` — an operation that writes all of its text or nothing.

## Main statements

* `Action.follows_generate`, `Action.follows_remove` — both operations follow such a plan.
* `Action.isAtomic_of_follows` — what follows a plan is atomic.
* `Action.isAtomic_generate_and_remove` — both operations are atomic.
-/

namespace SectionIndex

/-! ### The bytes of one file -/

/-- The locations of a tree, in their order. -/
def FileTree.places (tree : FileTree) : List Location :=
  tree.entries.map Prod.fst

/-- **Nothing differs but the bytes of one file:** the one that a path leads to. -/
structure Host.ChangesOnly (path : Path) (host other : Host) : Prop where
  workingDirectory : other.workingDirectory = host.workingDirectory
  home : other.home = host.home
  accounts : other.accounts = host.accounts
  places : other.tree.places = host.tree.places
  get?_eq_or : ∀ place, other.tree.get? place = host.tree.get? place ∨
    ∃ old new, host.lookup path = .found place (.file old) ∧
      other.tree.get? place = some (.file new)

namespace FileTree

/-- An entry that is put where one stands moves no other. -/
theorem places_put {tree : FileTree} {place : Location} {old : Entry}
    (h : tree.entries.lookup place = some old) (new : Entry) :
    (tree.put place new).places = tree.places := by
  unfold places put
  generalize tree.entries = entries at h
  induction entries with
  | nil => nomatch h
  | cons first entries ih =>
    obtain ⟨p, e⟩ := first
    unfold putEntry
    split
    · next heq => rw [List.map_cons, List.map_cons, heq]
    · next hne =>
      have hrest : entries.lookup place = some old := by
        rw [List.lookup_cons, beq_false_of_ne (Ne.symm hne)] at h
        exact h
      rw [List.map_cons, List.map_cons, ih hrest]

end FileTree

namespace Host

variable {host : Host} {path : Path}

theorem ChangesOnly.refl (path : Path) (host : Host) : host.ChangesOnly path host :=
  ⟨rfl, rfl, rfl, rfl, fun _ => Or.inl rfl⟩

/-- **A text that is written** changes the bytes of one file. -/
theorem changesOnly_overwrite (host : Host) (path : Path) (content : Text) :
    host.ChangesOnly path (host.overwrite path content) := by
  -- only a file that is found is written, and at its place alone
  cases hlookup : host.lookup path with
  | found place entry =>
    cases entry with
    | file old =>
      have hwritten :
          host.overwrite path content = host.put place (.file (encodeUtf8 content)) := by
        rw [overwrite, hlookup]
      have hentry := get?_of_lookup hlookup
      have hroot := FileTree.ne_nil_of_get?_file hentry
      have hplaces := FileTree.places_put (FileTree.lookup_of_get?_file hentry)
        (.file (encodeUtf8 content))
      rw [hwritten]
      refine ⟨rfl, rfl, rfl, hplaces, fun other => ?_⟩
      by_cases hother : other = place
      · subst hother
        exact Or.inr ⟨old, _, hlookup, FileTree.get?_put_self _ _ _ hroot⟩
      · exact Or.inl (FileTree.get?_put_of_ne _ _ hother)
    | directory => rw [overwrite, hlookup]; exact .refl path host
    | link target => rw [overwrite, hlookup]; exact .refl path host
  | missing => rw [overwrite, hlookup]; exact .refl path host
  | nameTooLong => rw [overwrite, hlookup]; exact .refl path host
  | linkLoop => rw [overwrite, hlookup]; exact .refl path host

end Host

/-! ### Steps of an action -/

namespace Action

variable {α β : Type} {host : Host}

@[simp] theorem on_pure (result : α) (host : Host) :
    on (pure result) host = (.ok result, host) := rfl

@[simp] theorem on_throw (fault : Fault) (host : Host) :
    on (throw fault : Action α) host = (.error fault, host) := rfl

/-- **One action after another:** the second starts from the host that the first one leaves, and it
is not carried out after a fault. -/
theorem on_bind (action : Action α) (next : α → Action β) (host : Host) :
    on (action >>= next) host =
      match on action host with
      | (.ok result, after) => on (next result) after
      | (.error fault, after) => (.error fault, after) := by
  unfold on ExceptT.run StateT.run
  simp only [bind, ExceptT.bind, ExceptT.mk, StateT.bind]
  cases action host with
  | mk outcome after =>
    cases outcome with
    | ok result => rfl
    | error fault => rfl

/-- **A fault is caught:** what was written before it stays. -/
theorem on_tryCatch (attempt : Action α) (recover : Fault → Action α) (host : Host) :
    on (tryCatch attempt recover) host =
      match on attempt host with
      | (.ok result, after) => (.ok result, after)
      | (.error fault, after) => on (recover fault) after := by
  unfold on ExceptT.run StateT.run
  simp only [tryCatch, tryCatchThe, MonadExceptOf.tryCatch, ExceptT.tryCatch, ExceptT.mk, bind,
    StateT.bind]
  cases attempt host with
  | mk outcome after =>
    cases outcome with
    | ok result => rfl
    | error fault => rfl

@[simp] theorem on_ask (question : Host → Except Fault α) (host : Host) :
    on (ask question) host = (question host, host) := rfl

@[simp] theorem on_settle (result : Except Fault α) (host : Host) :
    on (settle result) host = (result, host) := rfl

@[simp] theorem on_overwrite (path : Path) (content : Text) (host : Host) :
    on (overwrite path content) host = (.ok (), host.overwrite path content) := rfl

/-! ### Actions that are worked out first -/

/-- **The action follows a plan** on a host: its outcome is the one of the plan, and the text of the
plan, if there is one, is all that it writes, unless it is only tried out. -/
def Follows (write : Bool) (path : Path) (host : Host) (plan : Except Fault (α × Option Text))
    (action : Action α) : Prop :=
  on action host =
    (plan.map Prod.fst,
      if write then host.overwriteIf path (plan.toOption.bind Prod.snd) else host)

section Follows

variable {write : Bool} {path : Path}

/-- A plan without a new text changes nothing. -/
theorem follows_of_unchanged {plan : Except Fault (α × Option Text)} {action : Action α}
    (h : on action host = (plan.map Prod.fst, host)) (hnone : plan.toOption.bind Prod.snd = none) :
    Follows write path host plan action := by
  unfold Follows
  rw [h, hnone, Host.overwriteIf_none, ite_self]

theorem follows_pure (result : α) : Follows write path host (.ok (result, none)) (pure result) :=
  follows_of_unchanged rfl rfl

theorem follows_throw (fault : Fault) :
    Follows write path host (.error fault : Except Fault (α × Option Text)) (throw fault) :=
  follows_of_unchanged rfl rfl

/-- **What is asked of the host** is known when the rest is planned. -/
theorem follows_ask_bind (question : Host → Except Fault β)
    {plan : β → Except Fault (α × Option Text)} {next : β → Action α}
    (h : ∀ answer, Follows write path host (plan answer) (next answer)) :
    Follows write path host (question host >>= plan) (ask question >>= next) := by
  unfold Follows
  rw [on_bind, on_ask]
  cases question host with
  | ok answer => exact h answer
  | error fault => exact follows_throw fault

theorem follows_settle_bind (outcome : Except Fault β)
    {plan : β → Except Fault (α × Option Text)} {next : β → Action α}
    (h : ∀ answer, Follows write path host (plan answer) (next answer)) :
    Follows write path host (outcome >>= plan) (settle outcome >>= next) :=
  follows_ask_bind (fun _ => outcome) h

/-- **The write is the last step**, and it is left out in a trial. -/
theorem follows_overwrite (content : Text) (result : α) :
    Follows write path host (.ok (result, some content))
      (if write then overwrite path content >>= fun _ => pure result else pure result) := by
  unfold Follows
  cases write with
  | true => rfl
  | false => rfl

/-- **A fault that is caught** came before the write, and what is made of it is all that is left of
the plan. -/
theorem follows_tryCatch {plan recovered : Except Fault (α × Option Text)} {attempt : Action α}
    {recover : Fault → Except Fault α} (h : Follows write path host plan attempt)
    (hok : ∀ result, plan = .ok result → recovered = .ok result)
    (herror : ∀ fault, plan = .error fault → recovered = (recover fault).map (·, none)) :
    Follows write path host recovered (tryCatch attempt fun fault => settle (recover fault)) := by
  unfold Follows at h
  -- a plan that fails has written nothing, so recovering from the fault changes nothing either
  cases plan with
  | ok result =>
    unfold Follows
    rw [on_tryCatch, h, hok result rfl]
    rfl
  | error fault =>
    rw [herror fault rfl]
    refine follows_of_unchanged ?_ ?_
    · have hnothing : host.overwriteIf path none = host := rfl
      rw [on_tryCatch, h]
      simp only [Except.map, Except.toOption, Option.bind_none, hnothing, ite_self]
      cases recover fault with
      | ok result => rfl
      | error fault => rfl
    · cases recover fault with
      | ok result => rfl
      | error fault => rfl

end Follows

/-- **An index is written** as it was worked out. -/
theorem follows_generate (settings : Settings) (now : Moment) (file : Text)
    (minLines : Option Int) (write : Bool) (host : Host) :
    Follows write (Path.ofText file) host
      (Context.generate ⟨host, settings, now⟩ file minLines)
      (generate settings now file minLines write) := by
  have htry (limit : Int) : Follows write (Path.ofText file) host
      (Context.tryGenerate ⟨host, settings, now⟩ file limit)
      (tryGenerate settings now file limit write) := by
    unfold tryGenerate Context.tryGenerate
    refine follows_ask_bind _ fun content => ?_
    simp only
    split
    · exact follows_pure _
    -- each step of the operation is that step of the plan: asking changes nothing, and the only
    -- write comes last
    cases Language.ofPath? (Path.ofText file) with
    | none => exact follows_throw _
    | some language =>
      cases hstyle : language.blockStyle with
      | none =>
        simp only [hstyle]
        exact follows_pure _
      | some style =>
        simp only [hstyle]
        refine follows_settle_bind _ fun existing => ?_
        refine follows_ask_bind _ fun found => ?_
        refine follows_ask_bind _ fun moment => ?_
        refine follows_settle_bind _ fun _ => ?_
        exact follows_overwrite _ _
  refine follows_tryCatch (htry (minLines.getD settings.minLines)) ?_ ?_
  · intro result hresult
    unfold Context.generate
    rw [hresult]
  · intro fault hfault
    unfold Context.generate
    rw [hfault]

/-- **An index is removed** as it was worked out. -/
theorem follows_remove (settings : Settings) (now : Moment) (file : Text) (write : Bool)
    (host : Host) :
    Follows write (Path.ofText file) host (Context.remove ⟨host, settings, now⟩ file)
      (remove file write) := by
  have htry : Follows write (Path.ofText file) host
      (Context.tryRemove ⟨host, settings, now⟩ file) (tryRemove file write) := by
    unfold tryRemove Context.tryRemove
    refine follows_ask_bind _ fun content => ?_
    refine follows_settle_bind _ fun existing => ?_
    cases existing with
    | none => exact follows_pure _
    | some existing => exact follows_overwrite _ _
  refine follows_tryCatch htry ?_ ?_
  · intro result hresult
    unfold Context.remove
    rw [hresult]
  · intro fault hfault
    unfold Context.remove
    rw [hfault]

/-! ### All or nothing -/

/-- **An operation that writes all or nothing.** It changes no more than the bytes of the file at
the end of the path. It changes nothing if it is only tried out and unless it succeeds, and if it
succeeds, the file has its new text. A trial comes to the same outcome. -/
structure IsAtomic (status : α → Status) (file : Text) (operation : Bool → Action α) : Prop where
  changesOnly : ∀ (write : Bool) (host : Host),
    host.ChangesOnly (Path.ofText file) (on (operation write) host).2
  unchanged_of_trial : ∀ host, (on (operation false) host).2 = host
  unchanged_of_ne_success : ∀ (write : Bool) (host : Host),
    (∀ result, (on (operation write) host).1 = .ok result → status result ≠ .success) →
      (on (operation write) host).2 = host
  written : ∀ host result, (on (operation true) host).1 = .ok result → status result = .success →
    ∃ new, (on (operation true) host).2 = host.overwrite (Path.ofText file) new ∧
      (on (operation true) host).2.loadFile file = .ok new
  same_outcome : ∀ host, (on (operation true) host).1 = (on (operation false) host).1

/-- **What follows a plan is atomic** if the plan has a new text when it succeeds and only then, and
only for a file that was read. -/
theorem isAtomic_of_follows {status : α → Status} {file : Text} {operation : Bool → Action α}
    {plan : Host → Except Fault (α × Option Text)}
    (hfollows : ∀ write host, Follows write (Path.ofText file) host (plan host) (operation write))
    (hplan : ∀ host result new?, plan host = .ok (result, new?) →
      (status result = .success ↔ new?.isSome = true) ∧
        (new?.isSome = true → ∃ content, host.loadFile file = .ok content)) :
    IsAtomic status file operation := by
  -- what comes of the operation and what it leaves are both read off the plan
  have houtcome (write : Bool) (host : Host) :
      (on (operation write) host).1 = (plan host).map Prod.fst := by
    rw [hfollows write host]
  have hafter (write : Bool) (host : Host) : (on (operation write) host).2 =
      if write then host.overwriteIf (Path.ofText file) ((plan host).toOption.bind Prod.snd)
      else host := by
    rw [hfollows write host]
  refine ⟨fun write host => ?_, fun host => ?_, fun write host hstatus => ?_,
    fun host result hresult hsuccess => ?_, fun host => ?_⟩
  · -- only the file is changed, and only if there is a new text
    rw [hafter]
    split
    · cases (plan host).toOption.bind Prod.snd with
      | none => exact Host.ChangesOnly.refl _ host
      | some new => exact Host.changesOnly_overwrite host _ new
    · exact Host.ChangesOnly.refl _ host
  · rw [hafter]
    exact if_neg Bool.false_ne_true
  · -- a plan that does not succeed has no new text
    have hnone : (plan host).toOption.bind Prod.snd = none := by
      cases hcase : plan host with
      | error fault => rfl
      | ok planned =>
        obtain ⟨result, new?⟩ := planned
        obtain ⟨hiff, -⟩ := hplan host result new? hcase
        have hne := hstatus result (by rw [houtcome, hcase]; rfl)
        cases new? with
        | none => rfl
        | some new => exact absurd (hiff.mpr rfl) hne
    rw [hafter, hnone, Host.overwriteIf_none, ite_self]
  · -- a success has a new text, which is what a later reader is given
    cases hcase : plan host with
    | error fault =>
      rw [houtcome, hcase] at hresult
      nomatch hresult
    | ok planned =>
      obtain ⟨planned, new?⟩ := planned
      rw [houtcome, hcase] at hresult
      obtain rfl : planned = result := Except.ok.inj hresult
      obtain ⟨hiff, hload⟩ := hplan host planned new? hcase
      obtain ⟨new, rfl⟩ := Option.isSome_iff_exists.mp (hiff.mp hsuccess)
      obtain ⟨content, hcontent⟩ := hload rfl
      have hwritten : (on (operation true) host).2 = host.overwrite (Path.ofText file) new := by
        rw [hafter, hcase]
        rfl
      refine ⟨new, hwritten, ?_⟩
      rw [hwritten]
      exact Host.loadFile_overwrite new hcontent
  · -- the result is that of the plan, whether it writes or not
    rw [houtcome, houtcome]

end Action

/-! ### Plans with a new text -/

namespace Context

variable {context : Context} {file : Text} {new? : Option Text}

/-- **Writing an index has a new text** if it succeeds and only then. -/
theorem success_iff_of_generate {minLines : Option Int} {result : GenerateResult}
    (h : context.generate file minLines = .ok (result, new?)) :
    (result.status = .success ↔ new?.isSome = true) ∧
      (new?.isSome = true → ∃ content, context.host.loadFile file = .ok content) := by
  rcases generate_cases h with ⟨hstatus, rfl⟩ | ⟨content, _, _, _, _, _, _, hg, -, hsuccess, -, rfl⟩
  · exact ⟨iff_of_false hstatus nofun, nofun⟩
  · exact ⟨iff_of_true hsuccess rfl, fun _ => ⟨content, hg.load⟩⟩

/-- **Removing an index has a new text** if it succeeds and only then. -/
theorem success_iff_of_remove {result : RemoveResult}
    (h : context.remove file = .ok (result, new?)) :
    (result.status = .success ↔ new?.isSome = true) ∧
      (new?.isSome = true → ∃ content, context.host.loadFile file = .ok content) := by
  rcases remove_cases h with ⟨hstatus, -, rfl⟩ | ⟨content, _, hload, -, hsuccess, -, rfl⟩
  · exact ⟨iff_of_false hstatus nofun, nofun⟩
  · exact ⟨iff_of_true hsuccess rfl, fun _ => ⟨content, hload⟩⟩

end Context

/-- **Writing and removing an index are atomic**, on any host, for any file and with any
settings. -/
theorem Action.isAtomic_generate_and_remove (settings : Settings) (now : Moment) (file : Text) :
    (∀ minLines,
      IsAtomic GenerateResult.status file (generate settings now file minLines)) ∧
      IsAtomic RemoveResult.status file (remove file) := by
  constructor
  · intro minLines
    refine isAtomic_of_follows (follows_generate settings now file minLines) ?_
    intro host result new? hplan
    -- the context is read off the plan, since the goal only has the host in it
    have hiff := Context.success_iff_of_generate hplan
    exact hiff
  · refine isAtomic_of_follows (follows_remove settings now file) ?_
    intro host result new? hplan
    have hiff := Context.success_iff_of_remove hplan
    exact hiff

end SectionIndex
