import CallAdvice.Json

/-! The schema of configuration files, for editors. -/
set_option autoImplicit false

namespace CallAdvice.Config

/-- The schema as a document. -/
def schemaDoc : Json.Doc :=
  .object
    [("$schema", .text "https://json-schema.org/draft/2020-12/schema"),
      ("title", .text "SimplifyConfig"),
      ("description", .text "Root configuration structure."),
      ("type", .text "object"),
      ("properties", .object
        [("capabilities", .object
          [("description",
              .text "Capability id -> pinned value. Pinned capabilities are never probed."),
            ("type", .text "object"),
            ("additionalProperties", .object [("type", .text "boolean")]),
            ("default", .object [])]),
          ("warnings", .object
            [("description",
              .text "Enabled warning categories: true, false, [\"not\", ...] or [...].")])])]

/-- The text of the schema. -/
def schema : String := schemaDoc.pretty

end CallAdvice.Config
