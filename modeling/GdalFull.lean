import GdalFull.Lib.Loop
import GdalFull.Lib.Sink
import GdalFull.Lib.PyStr
import GdalFull.Lib.BashArith
import GdalFull.Lib.Csv
import GdalFull.Lib.Codec
import GdalFull.Lib.Mojibake
import GdalFull.Lib.Chunks
import GdalFull.Lib.CsvLines
import GdalFull.Lib.CsvCells
import GdalFull.Lib.CellCodec
import GdalFull.Lib.Resync
import GdalFull.Lib.FirstLine
import GdalFull.Lib.Regex
import GdalFull.Lib.MarkedNumber
import GdalFull.Lib.LabelledNumber
import GdalFull.Lib.Interleave
import GdalFull.Lib.Words
import GdalFull.Lib.Groups
import GdalFull.Lib.BlankLines
import GdalFull.Lib.Latch
import GdalFull.Lib.Paths
import GdalFull.Convert.Tree
import GdalFull.Convert.Resume
import GdalFull.Convert.Tochi
import GdalFull.Convert.Header
import GdalFull.Convert.Relabel
import GdalFull.Convert.Kozu
import GdalFull.Convert.Polygon
import GdalFull.Convert.Columns
import GdalFull.Convert.Blocks
import GdalFull.Convert.Bom
import GdalFull.Convert.Damage
import GdalFull.Convert.Detect
import GdalFull.Verify.Count
import GdalFull.Verify.Rows
import GdalFull.Verify.Sample
import GdalFull.Verify.EndToEnd
import GdalFull.Verify.Codecs
import GdalFull.Verify.TochiSample
import GdalFull.Verify.FeatureCount
import GdalFull.Verify.Elsewhere
import GdalFull.Pipeline.Env
import GdalFull.Pipeline.Pg
import GdalFull.Pipeline.Layers
import GdalFull.Pipeline.Srs
import GdalFull.Pipeline.Pmtiles
import GdalFull.Pipeline.Single
import GdalFull.Pipeline.CheckWrite
import GdalFull.Pipeline.Exports
import GdalFull.Pipeline.Geometry
import GdalFull.Merge.Attempts
import GdalFull.Merge.Python
import GdalFull.Merge.Shell
import GdalFull.Merge.Schema
import GdalFull.Merge.Genxy
import GdalFull.Merge.Zukei
import GdalFull.Merge.Dump
import GdalFull.Merge.Attributes
import GdalFull.Merge.GaikuZukei
import GdalFull.Merge.GaikuLabel
import GdalFull.Merge.Survive
import GdalFull.Merge.Raise
import GdalFull.Merge.Runs
import GdalFull.Merge.Orphans
import GdalFull.Postgres.Server
import GdalFull.Postgres.Restore
import GdalFull.Postgres.Build
import GdalFull.Postgres.Views
