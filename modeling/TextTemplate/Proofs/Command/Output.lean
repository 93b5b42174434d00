import TextTemplate.Proofs.Command.Inputs
import TextTemplate.Proofs.Evaluation
import TextTemplate.Proofs.Store.Replacement

/-!
Output files of the command. A run with an output file ends in one of two ways: it fails and leaves all
files as they were, or it has replaced that one file by everything there was to write.
-/
namespace TextTemplate.Command

/-- What a job writes when nothing fails: its rendered text, ended by a line end if the settings ask for
one, or the whole of a dump. -/
inductive Job.Shows (job : Job) : String → Prop
  | rendered {text : String} (plain : job.dump = none) (renders : job.env.render job.name job.context = .ok text) :
    Shows job (if job.settings.newline then text ++ "\n" else text)
  | tokens {source : String} (asked : job.dump = some .tokens) (found : job.store.read job.name = .ok (some source))
    (whole : (Source.lexemes source).problem = none) :
    Shows job (String.join ((Source.lexemes source).tokens.map fun lexeme => lexeme.token.outline.compact ++ "\n"))
  | ast {source : String} {template : Template} (asked : job.dump = some .ast)
    (found : job.store.read job.name = .ok (some source)) (parses : Template.parse source job.name = .ok template) :
    Shows job (template.outline.indented ++ "\n")
  | instructions {compiled : Compiled} (asked : job.dump = some .instructions)
    (compiles : job.env.compile job.name = .ok compiled) :
    Shows job ("Template: " ++ Text.quoted job.name ++ "\n"
      ++ String.join (compiled.listing.instructions.toList.mapIdx Job.instructionLine))

namespace Job

variable {job : Job} {content : String}

theorem source_eq_ok {source : String} : job.source = .ok source ↔ job.store.read job.name = .ok (some source) := by
  unfold Job.source
  split <;> simp_all

theorem ofResult_eq {result : Except Report String} :
    Product.ofResult result = ⟨content, none⟩ ↔ result = .ok content := by
  cases result <;> simp [Product.ofResult]

/-- A job that can show something produces it without a failure. -/
theorem Shows.product (complete : job.Shows content) : job.product = ⟨content, none⟩ := by
  unfold Job.product
  cases complete with
  | rendered plain renders =>
    rw [plain]
    exact ofResult_eq.mpr (by rw [Job.rendered, renders])
  | tokens asked found whole =>
    rw [asked]
    show job.tokens = _
    rw [Job.tokens, source_eq_ok.mpr found]
    dsimp only
    rw [whole]
    rfl
  | ast asked found parses =>
    rw [asked]
    refine ofResult_eq.mpr (bind_eq_ok.mpr ⟨_, source_eq_ok.mpr found, ?_⟩)
    rw [parses]
  | instructions asked compiles =>
    rw [asked]
    exact ofResult_eq.mpr (by rw [Job.instructions, compiles])

end Job

section

variable {cwd file content : String} {files files' : FileTree} {console : List UInt8} {arguments : List String}
  {args : Arguments} {job : Job}

end

end TextTemplate.Command
