import FilterSql.Main
import FilterSql.Filter.Canonical
import FilterSql.Filter.Grammar
import FilterSql.Filter.Parts
import FilterSql.Filter.Place
import FilterSql.Filter.Similar
import FilterSql.Sql.Like
import FilterSql.Sql.Reading
import FilterSql.Sql.Template
import FilterSql.Sql.Where
import FilterSql.Proofs.Binary64.Nearest
import FilterSql.Proofs.Decimal.Value
import FilterSql.Proofs.Decimal.Shortest
import FilterSql.Proofs.Filter.Messages
import FilterSql.Proofs.Filter.Defects
import FilterSql.Proofs.Filter.FirstDefect
import FilterSql.Proofs.Filter.Acceptance
import FilterSql.Proofs.Filter.Canonicity
import FilterSql.Proofs.Filter.Similarity
import FilterSql.Proofs.Filter.Recovery
import FilterSql.Proofs.Filter.Delimited
import FilterSql.Proofs.Filter.Depth
import FilterSql.Proofs.Sql.FirstFault
import FilterSql.Proofs.Sql.Outline
import FilterSql.Proofs.Sql.Layout
import FilterSql.Proofs.Sql.Unambiguous
import FilterSql.Proofs.Sql.Precedence
import FilterSql.Proofs.Sql.TestReading
import FilterSql.Proofs.Sql.Grouping
import FilterSql.Proofs.Sql.Nesting
import FilterSql.Proofs.Sql.ClauseRun
import FilterSql.Proofs.Sql.Conjuncts
import FilterSql.Proofs.Sql.FieldNames
import FilterSql.Proofs.Sql.Dialects
import FilterSql.Proofs.Sql.Complements
import FilterSql.Proofs.Sql.Patterns
import FilterSql.Proofs.Sql.Shaping
import FilterSql.Proofs.Sql.Escapings
import FilterSql.Proofs.Sql.Numbers
import FilterSql.Proofs.Sql.DecimalCommas
import FilterSql.Proofs.Sql.Quoting
import FilterSql.Proofs.Sql.Depth
import FilterSql.Proofs.Command.Agreement
