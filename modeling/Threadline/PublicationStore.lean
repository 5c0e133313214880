import Threadline.PublicationFiles

/-!
# The published file

However the file operations of publishers and readers of one target fall, and
wherever they stop, the target holds what was there at first or the whole payload
of a candidate that was validated, and a reader has one of these documents.
-/

open PyText PyJson PyExcept Stepwise Runs NamedFiles NamedFiles.Directory

namespace Threadline

namespace Storing

section

variable {κ : Type} {target : Text} {accepted : List UInt8 → Prop} {k : κ}
  {s s' : TargetDirectory κ}

/-- A publisher relies on the other parties to leave its files, and closed files, alone. -/
abbrev Rely (target : Text) (accepted : List UInt8 → Prop) (k : κ) :
    TargetDirectory κ → TargetDirectory κ → Prop := Relies target accepted (some k)

abbrev Guar (target : Text) (accepted : List UInt8 → Prop) (k : κ) :
    TargetDirectory κ → TargetDirectory κ → Prop := Guarantees target accepted (some k)

/-- A program of a party that is right among the others. -/
abbrev Right {α : Type} (target : Text) (accepted : List UInt8 → Prop) (k : κ)
    (post : Except StoreError α → TargetDirectory κ → Prop) (p : Storing κ α)
    (s : TargetDirectory κ) : Prop :=
  p.Ensures (Rely target accepted k) (Guar target accepted k) post s

theorem right_bind {α β : Type} {p : Storing κ α} {f : α → Storing κ β}
    {post : Except StoreError β → TargetDirectory κ → Prop}
    (h : Right target accepted k (fun result s => match result with
      | .ok a => Right target accepted k post (f a) s
      | .error e => post (.error e) s) p s) :
    Right target accepted k post (p >>= f) s := by
  refine Program.Ensures.bind Relies.refl (Program.Ensures.imp h fun result s hs => ?_)
  cases result with
  | ok a => exact hs
  | error e => exact hs

theorem right_perform {α : Type} {f : TargetDirectory κ → Except StoreError α × TargetDirectory κ}
    {post : Except StoreError α → TargetDirectory κ → Prop}
    (hraise : ∀ fault s', Rely target accepted k s s' → post (.error (.raised fault)) s')
    (h : ∀ s', Rely target accepted k s s' → Guar target accepted k s' (f s').2 ∧
      ∀ s'', Rely target accepted k (f s').2 s'' → post (f s').1 s'') :
    Right target accepted k post (perform f) s :=
  Program.ensures_op fun s' hs' => ⟨⟨.refl s', fun fault s'' hs'' =>
    hraise fault s'' (hs'.trans hs'')⟩, h s' hs'⟩

/-- An operation that only looks at the directory. -/
theorem right_look {α : Type} {v : TargetDirectory κ → Except StoreError α}
    {post : Except StoreError α → TargetDirectory κ → Prop}
    (hraise : ∀ fault s', Rely target accepted k s s' → post (.error (.raised fault)) s')
    (h : ∀ s', Rely target accepted k s s' → ∀ s'', Rely target accepted k s' s'' →
      post (v s') s'') :
    Right target accepted k post (perform fun s => (v s, s)) s :=
  right_perform hraise fun s' hs' => ⟨.refl s', h s' hs'⟩

theorem right_done {α : Type} {result : Except StoreError α}
    {post : Except StoreError α → TargetDirectory κ → Prop}
    (h : ∀ s', Rely target accepted k s s' → post result s') :
    Right target accepted k post (.done result) s := h

/-! ## The temporary file -/

/-- A party has a file of its own under a name that is not the target. -/
structure Owns (target : Text) (k : κ) (name : Text) (i : ℕ) (content : List UInt8) (closed : Bool)
    (s : TargetDirectory κ) : Prop where
  different : name ≠ target
  entry : s.entries.get? name = some i
  file : s.files[i]? = some ⟨some k, content, closed⟩

variable {name : Text} {i : ℕ} {content : List UInt8} {closed : Bool}

theorem Owns.relies (h : Owns target k name i content closed s) (hs : Rely target accepted k s s') :
    Owns target k name i content closed s' where
  different := h.different
  entry := hs.name name h.different i _ h.entry h.file rfl
  file := hs.file i _ h.file (.inl rfl)

theorem temporaryName_ne (target token : Text) : temporaryName target token ≠ target := by
  intro h
  have hlength := congrArg List.length h
  simp [temporaryName, txt] at hlength
  omega

theorem right_createFile (hname : name ≠ target) :
    Right target accepted k (fun result s => match result with
      | .ok (some i) => Owns target k name i [] false s
      | _ => True) (createFile k name) s := by
  refine right_perform (fun _ _ _ => trivial) fun s' _ => ?_
  cases hentry : s'.entries.get? name with
  | some j => exact ⟨.refl s', fun _ _ => trivial⟩
  | none =>
    refine ⟨create_guarantees hname hentry, fun s'' hs'' => Owns.relies ⟨hname, ?_, ?_⟩ hs''⟩
    · show (s'.entries.set name _).get? name = _
      rw [PyDict.get?_set, if_pos rfl]
    · show (s'.files ++ [_])[s'.files.length]? = _
      rw [List.getElem?_append_right le_rfl, Nat.sub_self]
      rfl

theorem right_createTemporary (tokens : List Text) :
    Right target accepted k (fun result s => match result with
      | .ok created => Owns target k created.1 created.2 [] false s
      | .error _ => True) (createTemporary k target tokens) s := by
  induction tokens generalizing s with
  | nil => exact right_done fun _ _ => trivial
  | cons token tokens ih =>
    refine right_bind ((right_createFile (temporaryName_ne target token)).imp fun result s' h => ?_)
    cases result with
    | error e => trivial
    | ok created =>
      cases created with
      | none => exact ih
      | some i => exact right_done fun s'' hs'' => Owns.relies h hs''

theorem right_writeByte (h : Owns target k name i content false s) (b : UInt8) :
    Right target accepted k (fun result s => match result with
      | .ok _ => Owns target k name i (content ++ [b]) false s
      | .error _ => Owns target k name i content false s)
      (perform fun s => (.ok (), s.append i b)) s := by
  refine right_perform (fun _ _ hs' => h.relies hs') fun s' hs' => ?_
  have h' := h.relies hs'
  have hwritten : Owns target k name i (content ++ [b]) false (s'.append i b) := by
    refine ⟨h'.different, h'.entry, ?_⟩
    show (s'.files.modify i _)[i]? = _
    rw [List.getElem?_modify_eq, h'.file]
    rfl
  exact ⟨append_guarantees h'.file rfl rfl b, fun s'' hs'' => hwritten.relies hs''⟩

theorem right_writeBytes (bytes : List UInt8) (h : Owns target k name i content false s) :
    Right target accepted k (fun result s => match result with
      | .ok _ => Owns target k name i (content ++ bytes) false s
      | .error _ => ∃ content, Owns target k name i content false s) (writeBytes i bytes) s := by
  induction bytes generalizing s content with
  | nil =>
    refine right_done fun s' hs' => ?_
    show Owns target k name i (content ++ []) false s'
    rw [List.append_nil]
    exact h.relies hs'
  | cons b bytes ih =>
    refine right_bind ((right_writeByte h b).imp fun result s' h' => ?_)
    cases result with
    | error e => exact ⟨content, h'⟩
    | ok _ =>
      refine (ih h').imp fun result s'' h'' => ?_
      cases result with
      | error e => exact h''
      | ok _ =>
        rw [List.append_assoc] at h''
        exact h''

theorem right_pass {post : Except StoreError Unit → TargetDirectory κ → Prop}
    (hraise : ∀ fault s', Rely target accepted k s s' → post (.error (.raised fault)) s')
    (h : ∀ s', Rely target accepted k s s' → post (.ok ()) s') :
    Right target accepted k post pass s :=
  right_look hraise fun _ hs' s'' hs'' => h s'' (hs'.trans hs'')

theorem right_closeFile (h : Owns target k name i content false s) :
    Right target accepted k (fun result s => match result with
      | .ok _ => Owns target k name i content true s
      | .error _ => Owns target k name i content false s) (closeFile i) s := by
  refine right_perform (fun _ _ hs' => h.relies hs') fun s' hs' => ?_
  have h' := h.relies hs'
  have hclosed : Owns target k name i content true (s'.close i) := by
    refine ⟨h'.different, h'.entry, ?_⟩
    show (s'.files.modify i _)[i]? = _
    rw [List.getElem?_modify_eq, h'.file]
    rfl
  exact ⟨close_guarantees h'.file rfl rfl, fun s'' hs'' => hclosed.relies hs''⟩

/-- The file is the party's own, with whatever part of the payload it has got. -/
theorem right_writeTemporary (tokens : List Text) (payload : Bytes) :
    Right target accepted k (fun result s => match result with
      | .ok created => Owns target k created.1 created.2 payload.data.toList false s
      | .error _ => True) (writeTemporary k target tokens payload) s := by
  refine right_bind ((right_createTemporary tokens).imp fun result s₁ h₁ => ?_)
  cases result with
  | error e => trivial
  | ok created =>
    obtain ⟨name, i⟩ := created
    -- the handler closes the file before it raises, whatever has been written
    have hclose : ∀ e content s', Owns target k name i content false s' →
        Right target accepted k (fun result s => match result with
          | .ok _ => Owns target k name i payload.data.toList false s
          | .error _ => True) (do closeFile i; raise e : Storing κ Unit) s' := by
      intro e content s' h'
      refine right_bind ((right_closeFile h').imp fun result s'' _ => ?_)
      cases result with
      | error e => trivial
      | ok _ => exact right_done fun _ _ => trivial
    have hwrite : Right target accepted k (fun result s => match result with
        | .ok _ => Owns target k name i payload.data.toList false s
        | .error _ => True)
        (Program.tryCatch (do writeBytes i payload.data.toList; pass; pass) fun error => do
          closeFile i
          raise error) s₁ := by
      apply Program.Ensures.tryCatch Relies.refl
      refine right_bind ((right_writeBytes payload.data.toList h₁).imp fun result s₂ h₂ => ?_)
      cases result with
      | error e =>
        obtain ⟨content, h₂⟩ := h₂
        exact hclose e content s₂ h₂
      | ok _ =>
        rw [List.nil_append] at h₂
        refine right_bind (right_pass (fun fault s₃ hs₃ => hclose _ _ s₃ (h₂.relies hs₃))
          fun s₃ hs₃ => ?_)
        exact right_pass (fun fault s₄ hs₄ => hclose _ _ s₄ ((h₂.relies hs₃).relies hs₄))
          fun s₄ hs₄ => (h₂.relies hs₃).relies hs₄
    refine right_bind (hwrite.imp fun result s₂ h₂ => ?_)
    cases result with
    | error e => trivial
    | ok _ => exact right_done fun s₃ hs₃ => h₂.relies hs₃

/-- A temporary file is removed by the party that made it. -/
theorem right_removeTemporary (h : Owns target k name i content closed s) (e : StoreError)
    {post : Except StoreError Unit → TargetDirectory κ → Prop} (hpost : ∀ e s, post (.error e) s) :
    Right target accepted k post (removeTemporary name e) s := by
  unfold removeTemporary
  split_ifs with he
  · have hlook : Right target accepted k (fun _ s => Owns target k name i content closed s)
        (fileExists name) s :=
      right_look (fun _ _ hs' => h.relies hs') fun s₁ hs₁ s₂ hs₂ => (h.relies hs₁).relies hs₂
    refine right_bind (hlook.imp fun result s₁ h₁ => ?_)
    cases result with
    | error e => exact hpost e s₁
    | ok present =>
      have hraise : ∀ s, Right target accepted k post (raise e) s := fun s =>
        right_done fun s' _ => hpost e s'
      cases present with
      | false => exact hraise s₁
      | true =>
        have hunlink : Right target accepted k (fun _ _ => True) (unlinkFile name) s₁ := by
          refine right_perform (fun _ _ _ => trivial) fun s₂ hs₂ => ?_
          have h₂ := h₁.relies hs₂
          rw [h₂.entry]
          exact ⟨unlink_guarantees h₂.different h₂.entry h₂.file rfl, fun _ _ => trivial⟩
        refine right_bind (hunlink.imp fun result s₂ _ => ?_)
        cases result with
        | error e => exact hpost e s₂
        | ok _ => exact hraise s₂
  · exact right_done fun s₁ _ => hpost e s₁

/-! ## The target -/

/-- The target has been given to a file of the party with this payload. -/
def Installed (target : Text) (k : κ) (payload : List UInt8) (s : TargetDirectory κ) : Prop :=
  ∃ i, (target, i) ∈ s.history ∧ s.files[i]? = some ⟨some k, payload, true⟩

theorem Installed.relies {payload : List UInt8} (h : Installed target k payload s)
    (hs : Rely target accepted k s s') : Installed target k payload s' := by
  obtain ⟨i, hi, hfile⟩ := h
  exact ⟨i, hs.history.subset hi, hs.file i _ hfile (.inl rfl)⟩

/-- The rename either happens or leaves the temporary file. -/
theorem right_replaceFile (h : Owns target k name i content true s) (hcontent : accepted content) :
    Right target accepted k (fun result s => match result with
      | .ok _ => Installed target k content s
      | .error _ => Owns target k name i content true s) (replaceFile name target) s := by
  refine right_perform (fun _ _ hs' => h.relies hs') fun s' hs' => ?_
  have h' := h.relies hs'
  rw [h'.entry]
  have hinstalled : Installed target k content (s'.rename name target i) :=
    ⟨i, List.mem_append_right _ (List.mem_singleton.mpr rfl), h'.file⟩
  exact ⟨rename_guarantees h'.different h'.entry h'.file rfl rfl hcontent,
    fun s'' hs'' => hinstalled.relies hs''⟩

theorem right_install (tokens : List Text) {payload : Bytes}
    (hpayload : accepted payload.data.toList) :
    Right target accepted k (fun result s => match result with
      | .ok _ => Installed target k payload.data.toList s
      | .error _ => True) (install k target tokens payload) s := by
  refine right_bind ((right_writeTemporary tokens payload).imp fun result s₁ h₁ => ?_)
  cases result with
  | error e => trivial
  | ok created =>
    obtain ⟨name, i⟩ := created
    have hreplace : Right target accepted k (fun result s => match result with
        | .ok _ => Installed target k payload.data.toList s
        | .error _ => True)
        (Program.tryCatch (do closeFile i; pass; replaceFile name target) (removeTemporary name))
        s₁ := by
      apply Program.Ensures.tryCatch Relies.refl
      refine right_bind ((right_closeFile h₁).imp fun result s₂ h₂ => ?_)
      cases result with
      | error e => exact right_removeTemporary h₂ e fun _ _ => trivial
      | ok _ =>
        refine right_bind (right_pass
          (fun fault s₃ hs₃ => right_removeTemporary (h₂.relies hs₃) _ fun _ _ => trivial)
          fun s₃ hs₃ => ?_)
        refine (right_replaceFile (h₂.relies hs₃) hpayload).imp fun result s₄ h₄ => ?_
        cases result with
        | error e => exact right_removeTemporary h₄ e fun _ _ => trivial
        | ok _ => exact h₄
    refine right_bind (hreplace.imp fun result s₂ h₂ => ?_)
    cases result with
    | error e => trivial
    | ok _ => exact right_pass (fun _ _ _ => trivial) fun s₃ hs₃ => h₂.relies hs₃

/-- A receipt is for the payload of the candidate, which has been put under the target. -/
def Receipted (sha256 : Bytes → Text) (target : Text) (k : κ) (candidate : ReconciliationResult)
    (receipt : PublicationReceipt) (s : TargetDirectory κ) : Prop :=
  ∃ payload, publishedPayload true candidate = .ok payload ∧
    receipt.runId = candidate.runId ∧ receipt.destination = target ∧
    receipt.payloadSha256 = sha256 payload ∧ receipt.byteCount = payload.size ∧
    Installed target k payload.data.toList s

theorem right_publish (sha256 : Bytes → Text) (call : PublishResultCall)
    (haccepted : ∀ payload, publishedPayload true call.candidate = .ok payload →
      accepted payload.data.toList) :
    Right target accepted k (fun result s => match result with
      | .ok receipt => Receipted sha256 target k call.candidate receipt s
      | .error _ => True) (publish sha256 k target call) s := by
  refine right_bind (right_done fun s₁ _ => ?_)
  cases hpayload : publishedPayload true call.candidate with
  | error e => trivial
  | ok payload =>
    refine right_bind (right_pass (fun _ _ _ => trivial) fun s₂ _ => ?_)
    refine right_bind ((right_install call.tokens (haccepted payload hpayload)).imp
      fun result s₃ h₃ => ?_)
    cases result with
    | error e => trivial
    | ok _ =>
      refine right_bind (right_pass (fun _ _ _ => trivial) fun s₄ hs₄ => ?_)
      refine right_bind (right_done fun s₅ hs₅ => ?_)
      cases orRaise call.clock StoreError.clockWithoutOffset with
      | error e => trivial
      | ok publishedAt =>
        exact right_done fun s₆ hs₆ => ⟨payload, hpayload, rfl, rfl, rfl, rfl,
          ((h₃.relies hs₄).relies hs₅).relies hs₆⟩

/-! ## Readers -/

/-- A closed file. -/
def ClosedFile (i : ℕ) (content : List UInt8) (s : TargetDirectory κ) : Prop :=
  ∃ file, s.files[i]? = some file ∧ file.closed ∧ file.content = content

theorem ClosedFile.relies (h : ClosedFile i content s) (hs : Rely target accepted k s s') :
    ClosedFile i content s' := by
  obtain ⟨file, hfile, hclosed, hcontent⟩ := h
  exact ⟨file, hs.file i file hfile (.inr hclosed), hclosed, hcontent⟩

theorem right_readAt (h : ClosedFile i content s) (offset : ℕ) (limit : Option ℕ) :
    Right target accepted k (fun result s' => Rely target accepted k s s' ∧ match result with
      | .ok piece => piece = match limit with
        | some n => (content.drop offset).take n
        | none => content.drop offset
      | .error e => ∃ fault, e = .raised fault) (readAt i offset limit) s := by
  refine right_look (fun fault _ hs' => ⟨hs', fault, rfl⟩) fun s₁ hs₁ s₂ hs₂ =>
    ⟨hs₁.trans hs₂, ?_⟩
  obtain ⟨file, hfile, -, hcontent⟩ := h.relies hs₁
  dsimp only
  rw [hfile, ← hcontent]
  rfl

/-- The pieces that are read of a closed file are its content. -/
theorem right_readPieces (sizes : List ℕ) (h : ClosedFile i content s) (offset : ℕ) :
    Right target accepted k (fun result s' => Rely target accepted k s s' ∧ match result with
      | .ok rest => rest = content.drop offset
      | .error e => ∃ fault, e = .raised fault) (readPieces i offset sizes) s := by
  induction sizes generalizing s offset with
  | nil => exact right_readAt h offset none
  | cons n sizes ih =>
    refine right_bind ((right_readAt h offset (some n)).imp fun result s₁ h₁ => ?_)
    obtain ⟨hs₁, hresult⟩ := h₁
    cases result with
    | error e => exact ⟨hs₁, hresult⟩
    | ok piece =>
      subst hresult
      refine right_bind ((ih (h.relies hs₁) _).imp fun result s₂ h₂ => ?_)
      obtain ⟨hs₂, hresult⟩ := h₂
      cases result with
      | error e => exact ⟨hs₁.trans hs₂, hresult⟩
      | ok rest =>
        refine right_done fun s₃ hs₃ => ⟨(hs₁.trans hs₂).trans hs₃, ?_⟩
        subst hresult
        -- the next piece starts where this one ends, also at the end of the file
        show (content.drop offset).take n ++ content.drop _ = _
        rw [← List.drop_drop, List.length_take]
        rcases Nat.le_total n (content.drop offset).length with hn | hn
        · rw [Nat.min_eq_left hn, List.take_append_drop]
        · rw [Nat.min_eq_right hn, List.take_of_length_le hn, List.drop_length, List.append_nil]

/-- A file that the target has stood for since a reader began. -/
def Shown (target : Text) (accepted : List UInt8 → Prop) (content : List UInt8)
    (start s : TargetDirectory κ) : Prop :=
  accepted content ∧ ∃ i, ClosedFile i content s ∧
    (start.entries.get? target = some i ∨
      ∃ n, start.history.length ≤ n ∧ s.history[n]? = some (target, i))

theorem Shown.relies {start : TargetDirectory κ} (h : Shown target accepted content start s)
    (hs : Rely target accepted k s s') : Shown target accepted content start s' := by
  obtain ⟨haccepted, i, hi, hfrom⟩ := h
  refine ⟨haccepted, i, hi.relies hs, hfrom.imp_right ?_⟩
  rintro ⟨n, hn, hentry⟩
  obtain ⟨rest, hrest⟩ := hs.history
  refine ⟨n, hn, ?_⟩
  rw [← hrest, List.getElem?_append_left (List.getElem?_eq_some_iff.mp hentry).1, hentry]

/-- Whatever a target stands for was there when the reader began or has been put there since. -/
theorem shown_current {start : TargetDirectory κ} (hstart : start.Sound target accepted)
    (hs : Rely target accepted k start s) {i : ℕ} (hi : s.entries.get? target = some i) :
    ∃ content, ClosedFile i content s ∧ Shown target accepted content start s := by
  have hsound := hs.sound hstart
  obtain ⟨file, hfile, hclosed, haccepted⟩ := hsound.current i hi
  have hholds : ClosedFile i file.content s := ⟨file, hfile, hclosed, rfl⟩
  refine ⟨file.content, hholds, haccepted, i, hholds, ?_⟩
  obtain ⟨rest, hrest⟩ := hs.history
  cases rest using List.reverseRecOn with
  | nil =>
    left
    rw [List.append_nil] at hrest
    rw [← hs.unchanged hrest.symm, hi]
  | append_singleton rest entry =>
    right
    rw [← List.append_assoc] at hrest
    have hlast := hsound.last entry (by rw [← hrest, List.getLast?_concat]; rfl)
    obtain ⟨htarget, -⟩ := hsound.history entry (by rw [← hrest]; simp)
    refine ⟨(start.history ++ rest).length, by simp, ?_⟩
    rw [← hrest, List.getElem?_concat_length, ← htarget, Option.some.inj (hi.symm.trans hlast)]

/-- What a reader says of the target. -/
def ReadAs (decoder : Decoder) (target : Text) (accepted : List UInt8 → Prop)
    (start : TargetDirectory κ) : Except StoreError (Option Json) → TargetDirectory κ → Prop
  | .ok none, _ => start.entries.get? target = none
  | .ok (some document), s => ∃ content, Shown target accepted content start s ∧
      readDocument decoder content = .ok document
  | .error e, s => (∃ fault, e = .raised fault) ∨ ∃ content, Shown target accepted content start s ∧
      readDocument decoder content = .error e

theorem right_readCurrent (decoder : Decoder) (sizes : List ℕ) (hs : s.Sound target accepted) :
    Right target accepted k (ReadAs decoder target accepted s) (readCurrent decoder target sizes)
      s := by
  have hlook : Right target accepted k (fun result s₁ => Rely target accepted k s s₁ ∧
      match result with
      | .ok false => s.entries.get? target = none
      | .ok true => s₁.entries.get? target ≠ none
      | .error e => ∃ fault, e = .raised fault) (fileExists target) s := by
    refine right_look (fun fault s₁ hs₁ => ⟨hs₁, fault, rfl⟩) fun s₁ hs₁ s₂ hs₂ =>
      ⟨hs₁.trans hs₂, ?_⟩
    cases hentry : s₁.entries.get? target with
    | none =>
      -- a target that is there does not go away
      show s.entries.get? target = none
      by_contra hne
      exact hs₁.published hne hentry
    | some i =>
      show s₂.entries.get? target ≠ none
      apply hs₂.published
      rw [hentry]
      exact Option.some_ne_none i
  refine right_bind (hlook.imp fun result s₁ h₁ => ?_)
  obtain ⟨hs₁, hresult⟩ := h₁
  cases result with
  | error e => exact .inl hresult
  | ok present =>
    cases present with
    | false => exact right_done fun s₂ _ => hresult
    | true =>
      have hopen : Right target accepted k (fun result s₂ => match result with
          | .ok i => ∃ content, ClosedFile i content s₂ ∧ Shown target accepted content s s₂
          | .error e => ∃ fault, e = .raised fault) (openFile target) s₁ := by
        refine right_perform (fun fault _ _ => ⟨fault, rfl⟩) fun s₂ hs₂ => ?_
        obtain ⟨i, hi⟩ := Option.ne_none_iff_exists'.mp (hs₂.published hresult)
        obtain ⟨content, hholds, hshown⟩ := shown_current hs (hs₁.trans hs₂) hi
        rw [hi]
        exact ⟨.refl s₂, fun s₃ hs₃ => ⟨content, hholds.relies hs₃, hshown.relies hs₃⟩⟩
      refine right_bind (hopen.imp fun result s₂ h₂ => ?_)
      cases result with
      | error e => exact .inl h₂
      | ok i =>
        obtain ⟨content, hholds, hshown⟩ := h₂
        refine right_bind ((right_readPieces sizes hholds 0).imp fun result s₃ h₃ => ?_)
        obtain ⟨hs₃, hresult⟩ := h₃
        cases result with
        | error e => exact .inl hresult
        | ok rest =>
          rw [List.drop_zero] at hresult
          subst hresult
          refine right_bind (right_done fun s₄ hs₄ => ?_)
          have hshown₄ := (hshown.relies hs₃).relies hs₄
          cases hdocument : readDocument decoder rest with
          | error e => exact .inr ⟨rest, hshown₄, hdocument⟩
          | ok document => exact right_done fun s₅ hs₅ => ⟨rest, hshown₄.relies hs₅, hdocument⟩

end

end Storing

open Storing

/-! ## Processes at one target -/

/-- A process publishes a candidate or reads what is published. -/
inductive StoreParty
  | publisher (call : PublishResultCall)
  | reader (sizes : List ℕ)

inductive StoreResult
  | receipt (receipt : PublicationReceipt)
  | document (document : Option Json)

variable {κ : Type}

/-- A directory that none of the parties has written to. -/
structure Untouched (s : TargetDirectory κ) : Prop where
  valid : ∀ name i, s.entries.get? name = some i → i < s.files.length
  files : ∀ file ∈ s.files, file.writer = none ∧ file.closed
  history : s.history = []

/-- Processes that publish to a target or read it, and the directory that they find. -/
structure StoreSystem (κ : Type) where
  sha256 : Bytes → Text
  /-- How `json.load` reads floats and the constants that JSON does not have. -/
  library : JsonLibrary
  constant : Text → Number
  target : Text
  parties : κ → StoreParty
  directory : TargetDirectory κ
  untouched : Untouched directory

namespace StoreSystem

variable (system : StoreSystem κ)

abbrev decoder : Decoder := plainDecoder system.library system.constant

def program (k : κ) : Storing κ StoreResult :=
  match system.parties k with
  | .publisher call => do
    let receipt ← publish system.sha256 k system.target call
    pure (.receipt receipt)
  | .reader sizes => do
    let document ← readCurrent system.decoder system.target sizes
    pure (.document document)

/-- All parties before their first step. -/
def start : Family κ (TargetDirectory κ) StoreFault StoreError fun _ => StoreResult :=
  ⟨system.directory, system.program⟩

/-- The bytes of a validated candidate. -/
def CandidatePayload (content : List UInt8) : Prop :=
  ∃ k call payload, system.parties k = .publisher call ∧
    publishedPayload true call.candidate = .ok payload ∧ content = payload.data.toList

/-- What the target may hold. -/
def Accepted (content : List UInt8) : Prop :=
  system.directory.content? system.target = some content ∨ system.CandidatePayload content

theorem content?_eq_some {s : TargetDirectory κ} {name : Text} {content : List UInt8} :
    s.content? name = some content ↔
      ∃ i file, s.entries.get? name = some i ∧ s.files[i]? = some file ∧ file.content = content := by
  simp only [content?, Option.bind_eq_bind, Option.bind_eq_some_iff, Option.pure_def,
    Option.some.injEq]
  exact ⟨fun ⟨i, hi, file, hfile⟩ => ⟨i, file, hi, hfile⟩,
    fun ⟨i, file, hi, hfile⟩ => ⟨i, hi, file, hfile⟩⟩

theorem directory_sound : system.directory.Sound system.target system.Accepted where
  valid := system.untouched.valid
  current i hi := by
    have hfile := List.getElem?_eq_getElem (system.untouched.valid system.target i hi)
    exact ⟨_, hfile, (system.untouched.files _ (List.getElem_mem _)).2,
      .inl (content?_eq_some.mpr ⟨i, _, hi, hfile, rfl⟩)⟩
  history entry hentry := by
    rw [system.untouched.history] at hentry
    cases hentry
  last entry hentry := by
    rw [system.untouched.history] at hentry
    cases hentry

/-- What the result of a party means that has started from `s`. -/
def Post (s : TargetDirectory κ) (k : κ) (result : Except StoreError StoreResult)
    (s' : TargetDirectory κ) : Prop :=
  match system.parties k, result with
  | .publisher call, .ok (.receipt receipt) =>
    Receipted system.sha256 system.target k call.candidate receipt s'
  | .publisher _, .error _ => True
  | .reader _, .ok (.document document) =>
    ReadAs system.decoder system.target system.Accepted s (.ok document) s'
  | .reader _, .error e => ReadAs system.decoder system.target system.Accepted s (.error e) s'
  | .publisher _, .ok (.document _) | .reader _, .ok (.receipt _) => False

theorem right_program {s : TargetDirectory κ} (hs : s.Sound system.target system.Accepted) (k : κ) :
    Right system.target system.Accepted k (system.Post s k) (system.program k) s := by
  unfold program Post
  cases hparty : system.parties k with
  | publisher call =>
    have haccepted : ∀ payload, publishedPayload true call.candidate = .ok payload →
        system.Accepted payload.data.toList := fun payload hpayload =>
      .inr ⟨k, call, payload, hparty, hpayload, rfl⟩
    refine right_bind ((right_publish system.sha256 call haccepted).imp fun result s₁ h₁ => ?_)
    cases result with
    | error e => trivial
    | ok receipt =>
      obtain ⟨payload, hpayload, hrun, hdestination, hsha256, hcount, hinstalled⟩ := h₁
      exact right_done fun s₂ hs₂ =>
        ⟨payload, hpayload, hrun, hdestination, hsha256, hcount, hinstalled.relies hs₂⟩
  | reader sizes =>
    refine right_bind ((right_readCurrent system.decoder sizes hs).imp fun result s₁ h₁ => ?_)
    cases result with
    | error e => exact h₁
    | ok document =>
      refine right_done fun s₂ hs₂ => ?_
      cases document with
      | none => exact h₁
      | some document =>
        obtain ⟨content, hshown, hdocument⟩ := h₁
        exact ⟨content, hshown.relies hs₂, hdocument⟩

/-- What a reader makes of the bytes of a file. -/
def readResult (content : List UInt8) : Except StoreError StoreResult :=
  (readDocument system.decoder content).map fun document => .document (some document)

variable {system} in
/-- The bytes of a candidate are read as its document. -/
theorem accepted_read {content : List UInt8} {result : Except StoreError StoreResult} (haccepted : system.Accepted content)
    (hresult : result = system.readResult content) :
    (system.directory.content? system.target = some content ∧ result = system.readResult content) ∨
      ∃ i call document, system.parties i = .publisher call ∧
        validateForPublication call.candidate = .ok () ∧
        resultToDict call.candidate = some document ∧
        result = .ok (.document (some (canon document))) := by
  rcases haccepted with hfirst | ⟨i, call, payload, hparty, hpayload, rfl⟩
  · exact .inl ⟨hfirst, hresult⟩
  · obtain ⟨document, hdocument, hread⟩ :=
      readDocument_publishedPayload hpayload system.library system.constant
    refine .inr ⟨i, call, document, hparty, ?_, hdocument, ?_⟩
    · simp only [publishedPayload, bind_eq_ok, mapError_eq_ok] at hpayload
      obtain ⟨_, hvalid, -⟩ := hpayload
      exact hvalid
    · rw [hresult, readResult, hread]
      rfl

theorem right_others {target : Text} {accepted : List UInt8 → Prop} (i j : κ) (hne : j ≠ i)
    (s s' : TargetDirectory κ) (h : Guar target accepted j s s') : Rely target accepted i s s' :=
  h.relies fun heq => hne (Option.some.inj heq)

/-! ## Runs -/

variable [DecidableEq κ] (schedule later : List (κ × Option StoreFault))

/-- The parties take their steps in any order, and any of them may stop. -/
abbrev runs : Family κ (TargetDirectory κ) StoreFault StoreError fun _ => StoreResult :=
  run Family.step system.start schedule

theorem runs_append : system.runs (schedule ++ later) = run Family.step (system.runs schedule) later :=
  run_append _ _

theorem right_runs (k : κ) :
    Right system.target system.Accepted k (system.Post system.directory k)
      ((system.runs schedule).programs k) (system.runs schedule).state :=
  Family.ensures (fun _ => Relies.refl) (fun _ _ _ _ => Relies.trans) right_others
    (fun k => system.right_program system.directory_sound k) schedule k

/-- The directory changes as somebody who does not take part may rely on. -/
theorem runs_relies : Relies system.target system.Accepted none (system.runs schedule).state
    (system.runs (schedule ++ later)).state := by
  rw [runs_append]
  refine Family.ensures_rel (fun _ => Relies.refl) (fun _ _ _ _ => Relies.trans) right_others
    (system.right_runs schedule) Relies.refl (fun _ _ _ => Relies.trans) ?_ later
  exact fun k s₁ s₂ hguar => hguar.relies (Option.some_ne_none k)

theorem runs_sound : (system.runs schedule).state.Sound system.target system.Accepted :=
  (system.runs_relies [] schedule).sound system.directory_sound

theorem runs_single (turn : κ × Option StoreFault) :
    (system.runs (schedule ++ [turn])).state.history.length ≤
      (system.runs schedule).state.history.length + 1 := by
  rw [runs_append]
  rcases (Family.ensures_step (fun _ => Relies.refl) (fun _ _ _ _ => Relies.trans) right_others
    (system.right_runs schedule) turn).1 with hsame | ⟨k, hk⟩
  · rw [run_cons, run_nil, hsame]
    exact Nat.le_succ _
  · exact hk.single

variable {system schedule later} {i : ℕ} {content : List UInt8}

/-- A file that is put under the target stands there at a moment of the run. -/
theorem exists_moment {n : ℕ} (hn : (system.runs schedule).state.history.length ≤ n)
    (hentry : (system.runs (schedule ++ later)).state.history[n]? = some (system.target, i)) :
    ∃ m ≤ later.length,
      (system.runs (schedule ++ later.take m)).state.entries.get? system.target = some i := by
  have hlength := (List.getElem?_eq_some_iff.mp hentry).1
  rw [runs_append] at hlength
  -- the first step after which the history has this entry
  obtain ⟨pre, turn, post, hlater, hbefore, hafter⟩ := exists_step_of_run
    (fun c : Family κ (TargetDirectory κ) StoreFault StoreError _ => n < c.state.history.length)
    (Nat.not_lt.mpr hn) hlength
  have hsplit : later = (pre ++ [turn]) ++ post := by
    rw [hlater, List.append_assoc, List.singleton_append]
  refine ⟨(pre ++ [turn]).length, by simp [hlater], ?_⟩
  rw [hsplit, List.take_left, ← List.append_assoc]
  rw [← runs_append] at hbefore hafter
  rw [← List.append_assoc] at hafter
  -- it has no further entry, and it is the beginning of the history in the end
  have hcount := system.runs_single (schedule ++ pre) turn
  have hprefix : (system.runs (schedule ++ pre ++ [turn])).state.history <+:
      (system.runs (schedule ++ later)).state.history := by
    rw [hsplit, ← List.append_assoc, ← List.append_assoc]
    exact (system.runs_relies _ _).history
  have hlast : (system.runs (schedule ++ pre ++ [turn])).state.history.getLast? =
      some (system.target, i) := by
    rw [List.getLast?_eq_getElem?, ← hentry,
      show (system.runs (schedule ++ pre ++ [turn])).state.history.length - 1 = n by omega,
      List.getElem?_eq_getElem hafter, hprefix.getElem hafter, List.getElem?_eq_getElem]
  exact (system.runs_sound _).last (system.target, i) hlast

/-- The content of a file is what the target held when it stood for the file. -/
theorem closedFile_moment {m : ℕ} (h : ClosedFile i content (system.runs (schedule ++ later)).state)
    (hm : (system.runs (schedule ++ later.take m)).state.entries.get? system.target = some i) :
    (system.runs (schedule ++ later.take m)).state.content? system.target = some content := by
  obtain ⟨file, hfile, hclosed, -⟩ := (system.runs_sound _).current i hm
  have hrelies := system.runs_relies (schedule ++ later.take m) (later.drop m)
  rw [List.append_assoc, List.take_append_drop] at hrelies
  obtain ⟨file', hfile', -, hcontent⟩ := h
  obtain rfl := Option.some.inj ((hrelies.file i file hfile (.inr hclosed)).symm.trans hfile')
  exact content?_eq_some.mpr ⟨i, file, hm, hfile, hcontent⟩

theorem shown_moment (h : Shown system.target system.Accepted content (system.runs schedule).state
      (system.runs (schedule ++ later)).state) :
    ∃ m ≤ later.length,
      (system.runs (schedule ++ later.take m)).state.content? system.target = some content := by
  obtain ⟨-, i, hi, hstart | ⟨n, hn, hentry⟩⟩ := h
  · refine ⟨0, Nat.zero_le _, closedFile_moment hi ?_⟩
    rw [List.take_zero, List.append_nil]
    exact hstart
  · obtain ⟨m, hm, hcurrent⟩ := exists_moment hn hentry
    exact ⟨m, hm, closedFile_moment hi hcurrent⟩

theorem installed_moment {k : κ}
    (h : Installed system.target k content (system.runs schedule).state) :
    ∃ m ≤ schedule.length,
      (system.runs (schedule.take m)).state.content? system.target = some content := by
  obtain ⟨i, hi, hfile⟩ := h
  obtain ⟨n, hn⟩ := List.getElem?_of_mem hi
  have hstart : (system.runs []).state.history.length ≤ n := by
    show system.directory.history.length ≤ n
    rw [system.untouched.history]
    exact Nat.zero_le n
  have hholds : ClosedFile i content (system.runs ([] ++ schedule)).state := ⟨_, hfile, rfl, rfl⟩
  obtain ⟨m, hm, hcurrent⟩ := exists_moment hstart hn
  exact ⟨m, hm, closedFile_moment hholds hcurrent⟩

end StoreSystem

open StoreSystem

variable [DecidableEq κ]

/-- Wherever publishers and readers of a target stop, and whatever they meet, the target holds what
was there at first or the whole payload of a validated candidate, other files are as they were, and
whoever has a receipt has published its payload. -/
theorem published_file_atomic (system : StoreSystem κ) (schedule : List (κ × Option StoreFault)) :
    (∀ content, (system.runs schedule).state.content? system.target = some content →
      system.directory.content? system.target = some content ∨ system.CandidatePayload content) ∧
    (system.directory.content? system.target ≠ none →
      (system.runs schedule).state.content? system.target ≠ none) ∧
    (∀ name ≠ system.target, ∀ content, system.directory.content? name = some content →
      (system.runs schedule).state.content? name = some content) ∧
    ∀ k call receipt, system.parties k = .publisher call →
      (system.runs schedule).programs k = .done (.ok (.receipt receipt)) →
      ∃ payload, publishedPayload true call.candidate = .ok payload ∧
        receipt.runId = call.candidate.runId ∧ receipt.destination = system.target ∧
        receipt.payloadSha256 = system.sha256 payload ∧ receipt.byteCount = payload.size ∧
        ∃ m ≤ schedule.length, (system.runs (schedule.take m)).state.content? system.target =
          some payload.data.toList := by
  have hrelies := system.runs_relies [] schedule
  rw [List.nil_append] at hrelies
  have hsound := system.runs_sound schedule
  refine ⟨fun content hcontent => ?_, fun hpresent habsent => ?_, fun name hname content hcontent => ?_,
    fun k call receipt hparty hdone => ?_⟩
  · obtain ⟨i, file, hi, hfile, rfl⟩ := content?_eq_some.mp hcontent
    obtain ⟨file', hfile', -, haccepted⟩ := hsound.current i hi
    obtain rfl := Option.some.inj (hfile.symm.trans hfile')
    exact haccepted
  · obtain ⟨content, hcontent⟩ := Option.ne_none_iff_exists'.mp hpresent
    obtain ⟨i, file, hi, -, -⟩ := content?_eq_some.mp hcontent
    obtain ⟨j, hj⟩ := Option.ne_none_iff_exists'.mp
      (hrelies.published (show system.directory.entries.get? system.target ≠ none by simp [hi]))
    obtain ⟨file', hfile', -, -⟩ := hsound.current j hj
    rw [content?_eq_some.mpr ⟨j, file', hj, hfile', rfl⟩] at habsent
    cases habsent
  · -- the files that were there have no writer among the parties
    obtain ⟨i, file, hi, hfile, rfl⟩ := content?_eq_some.mp hcontent
    obtain ⟨hwriter, hclosed⟩ := system.untouched.files file (List.mem_of_getElem? hfile)
    exact content?_eq_some.mpr ⟨i, file, hrelies.name name hname i file hi hfile hwriter,
      hrelies.file i file hfile (.inr hclosed), rfl⟩
  · have hright := system.right_runs schedule k
    rw [hdone] at hright
    have hpost := hright _ (Relies.refl _)
    unfold Post at hpost
    rw [hparty] at hpost
    obtain ⟨payload, hpayload, hrun, hdestination, hsha256, hcount, hinstalled⟩ := hpost
    exact ⟨payload, hpayload, hrun, hdestination, hsha256, hcount, installed_moment hinstalled⟩

/-- A reader of an empty document that reads a byte first. -/
def emptyDocument : StoreSystem Unit where
  sha256 _ := []
  library := ⟨fun _ => .infinity false, fun _ => none⟩
  constant _ := .infinity false
  target := txt "result.json"
  parties _ := .reader [1]
  directory := ⟨PyDict.ofPairs [(txt "result.json", 0)], [⟨none, [123, 125], true⟩], []⟩
  untouched := {
    valid name i h := by
      have hmem := List.mem_singleton.mp (PyDict.mem_of_get?_ofPairs h)
      rw [(Prod.mk.inj hmem).2]
      exact Nat.zero_lt_one
    files := by simp
    history := rfl }

end Threadline
